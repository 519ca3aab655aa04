import Mathlib.Data.List.Basic
import ShaderInline.Directive.Guard

/-!
# Nested blocks

A block that is met at a greater depth ends no earlier. So a block that is opened inside another one
ends where that one does at the latest, whether the conditionals are balanced or not.
-/
namespace ShaderInline

/-- Whether a line opens a conditional of any kind. -/
def opensConditional (line : String) : Bool := beginsWith "#if" (Text.trim line)

/-- Whether a line closes a conditional. -/
def closesConditional (line : String) : Bool := beginsWith "#endif" (Text.trim line)

theorem depthAfter_eq (line : String) (depth : Nat) :
    depthAfter line depth =
      if opensConditional line then depth + 1
      else if closesConditional line then depth - 1 else depth := rfl

theorem depthAfter_mono (line : String) {depth deeper : Nat} (h : depth ≤ deeper) :
    depthAfter line depth ≤ depthAfter line deeper := by
  rw [depthAfter_eq, depthAfter_eq]
  split
  · exact Nat.succ_le_succ h
  · split
    · exact Nat.sub_le_sub_right h 1
    · exact h

theorem blockLength_mono (lines : List String) {depth deeper : Nat} (h : depth ≤ deeper) :
    blockLength depth lines ≤ blockLength deeper lines := by
  induction lines generalizing depth deeper with
  | nil => cases depth <;> simp [blockLength]
  | cons line lines ih =>
    cases depth with
    | zero => simp [blockLength]
    | succ depth =>
      obtain ⟨deeper, rfl⟩ := Nat.exists_eq_add_one_of_ne_zero (Nat.ne_zero_of_lt h)
      simp only [blockLength]
      exact Nat.succ_le_succ (ih (depthAfter_mono line h))

/-- The part of a block behind its first line is the block that is left at the new depth. -/
theorem eq_blockLength_of_succ_eq {depth skip : Nat} {line : String} {lines : List String}
    (h : skip + 1 = blockLength depth (line :: lines)) :
    ∃ deep, depth = deep + 1 ∧ skip = blockLength (depthAfter line depth) lines := by
  cases depth with
  | zero => simp [blockLength] at h
  | succ deep => exact ⟨deep, rfl, Nat.succ.inj h⟩

theorem opensConditional_of_testedName? {line name : String}
    (h : testedName? line = some name) : opensConditional line := by
  unfold testedName? at h
  split at h
  case h_1 c cs hprefix =>
    have happend := List.append_eq_of_isPrefixOf?_eq_some hprefix
    rw [opensConditional, beginsWith, List.isPrefixOf_iff_prefix, Text.trim,
      String.toList_ofList, ← happend]
    exact ⟨"ndef".toList ++ c :: cs, by simp⟩
  case h_2 => cases h

/-- A line that opens a guard opens a conditional. -/
theorem opensConditional_of_openedGuard? {line name : String} {following : List String}
    (h : openedGuard? line following = some name) : opensConditional line := by
  cases htested : testedName? line with
  | none => simp [openedGuard?, htested] at h
  | some tested => exact opensConditional_of_testedName? htested

theorem depthAfter_of_openedGuard? {line name : String} {following : List String}
    (h : openedGuard? line following = some name) (depth : Nat) :
    depthAfter line depth = depth + 1 := by
  rw [depthAfter_eq, if_pos (opensConditional_of_openedGuard? h)]

/-- A guarded block inside another block ends with it at the latest. -/
theorem blockLength_le_of_openedGuard? {line name : String} {following : List String}
    (h : openedGuard? line following = some name) (depth : Nat) :
    blockLength 1 following ≤ blockLength (depthAfter line depth) following := by
  rw [depthAfter_of_openedGuard? h]
  exact blockLength_mono following (Nat.succ_le_succ (Nat.zero_le depth))

end ShaderInline
