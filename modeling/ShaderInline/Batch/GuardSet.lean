/-!
# Guard sets

A set of guards that have been met, with the report whether an inserted one is new.
-/
namespace ShaderInline

structure GuardSet (α : Type) where
  members : List α := []
  nodup : members.Nodup := by exact List.nodup_nil

namespace GuardSet

variable {α : Type}

@[ext] theorem ext {s t : GuardSet α} (h : s.members = t.members) : s = t := by
  cases s; cases t; cases h; rfl

variable [DecidableEq α]

def contains (s : GuardSet α) (guard : α) : Bool := decide (guard ∈ s.members)

def size (s : GuardSet α) : Nat := s.members.length

def isEmpty (s : GuardSet α) : Bool := s.members.isEmpty

theorem contains_iff {s : GuardSet α} {guard : α} : s.contains guard ↔ guard ∈ s.members := by
  simp [contains]

theorem nodup_insert {members : List α} (h : members.Nodup) (guard : α) :
    (if guard ∈ members then members else members ++ [guard]).Nodup := by
  split
  case isTrue => exact h
  case isFalse hnew =>
    refine List.nodup_append.mpr ⟨h, by simp, ?_⟩
    intro a ha b hb
    rw [List.mem_singleton] at hb
    rintro rfl
    exact hnew (hb ▸ ha)

/-- The set with `guard` in it. -/
def insert (s : GuardSet α) (guard : α) : GuardSet α :=
  ⟨if guard ∈ s.members then s.members else s.members ++ [guard], nodup_insert s.nodup guard⟩

/-- A guard that has been met before is not added again. -/
theorem insert_of_contains {s : GuardSet α} {guard : α} (h : s.contains guard) :
    s.insert guard = s := by
  have hmem : guard ∈ s.members := contains_iff.mp h
  ext1
  simp [insert, hmem]

@[simp] theorem contains_insert (s : GuardSet α) (guard other : α) :
    (s.insert guard).contains other = (s.contains other || decide (other = guard)) := by
  unfold insert contains
  split
  case isTrue h =>
    by_cases e : other = guard
    · subst e; simp [h]
    · simp [e]
  case isFalse => simp

end GuardSet

end ShaderInline
