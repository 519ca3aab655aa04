import ShaderInline.Digest.Sha256
import ShaderInline.Path.Map

/-!
# Inlined files

The files that have been inlined: a table with the digests of their expanded texts, and the order in
which they were first completed. A file is inlined once in a batch, and later imports of it only
refer to that text.

Table and order change by different rules. A completed file gets its new digest in any case, and a
place in the order only if the table did not have it. That both tell of the same files is no part of
the data: it holds of the empty record and is kept whenever a file is entered.
-/
namespace ShaderInline

structure InlinedFiles where
  digests : PathMap Sha256 := {}
  /-- The files in completion order. -/
  files : List Path := []
  deriving DecidableEq, Repr

namespace InlinedFiles

/-- Enters a completed file with its expanded text. -/
def add (inlined : InlinedFiles) (path : Path) (expanded : String) : InlinedFiles where
  digests := inlined.digests.insert path (Sha256.ofText expanded)
  files :=
    match inlined.digests.get? path with
    | none => inlined.files ++ [path]
    | some _ => inlined.files

def digest? (inlined : InlinedFiles) (path : Path) : Option Sha256 := inlined.digests.get? path

def contains (inlined : InlinedFiles) (path : Path) : Bool := inlined.digests.contains path

def size (inlined : InlinedFiles) : Nat := inlined.files.length

def isEmpty (inlined : InlinedFiles) : Bool := inlined.files.isEmpty

variable {inlined : InlinedFiles} {path : Path}

theorem contains_eq_isSome_digest? (inlined : InlinedFiles) (path : Path) :
    inlined.contains path = (inlined.digest? path).isSome :=
  PathMap.contains_eq_isSome_get? _ _

theorem not_contains_empty (path : Path) : ¬ contains {} path := Bool.false_ne_true

theorem contains_congr (inlined : InlinedFiles) {path other : Path} (h : path ≈ other) :
    inlined.contains path = inlined.contains other :=
  PathMap.contains_congr _ h

theorem contains_add (inlined : InlinedFiles) (path other : Path) (expanded : String) :
    (inlined.add path expanded).contains other =
      (decide (path ≈ other) || inlined.contains other) :=
  PathMap.contains_insert _ _ _ _

theorem digest?_add (inlined : InlinedFiles) (path other : Path) (expanded : String) :
    (inlined.add path expanded).digest? other =
      if path ≈ other then some (Sha256.ofText expanded) else inlined.digest? other :=
  PathMap.get?_insert _ _ _ _

/-- A file that the table does not have comes last in completion order. -/
theorem files_add (inlined : InlinedFiles) (path : Path) (expanded : String) :
    (inlined.add path expanded).files =
      if inlined.contains path then inlined.files else inlined.files ++ [path] := by
  rw [contains_eq_isSome_digest?, digest?, add]
  cases inlined.digests.get? path with
  | none => rfl
  | some digest => rfl

theorem files_add_of_not_contains (h : ¬ inlined.contains path) (expanded : String) :
    (inlined.add path expanded).files = inlined.files ++ [path] := by
  rw [files_add, if_neg h]

/-- Whether no two files in the order are the same. -/
def IsDistinct (inlined : InlinedFiles) : Prop :=
  (inlined.files.map Path.components).Nodup

/-- Whether table and order agree: they have the same files, and the order has each of them once. -/
structure IsCoherent (inlined : InlinedFiles) : Prop where
  contains_iff : ∀ path, inlined.contains path ↔ ∃ file ∈ inlined.files, file ≈ path
  isDistinct : inlined.IsDistinct

theorem isCoherent_empty : IsCoherent {} where
  contains_iff path := iff_of_false (not_contains_empty path) (by simp)
  isDistinct := List.nodup_nil

namespace IsCoherent

theorem isSome_digest?_iff (h : inlined.IsCoherent) (path : Path) :
    (inlined.digest? path).isSome ↔ ∃ file ∈ inlined.files, file ≈ path := by
  rw [← contains_eq_isSome_digest?]
  exact h.contains_iff path

theorem mem_components_iff (h : inlined.IsCoherent) (path : Path) :
    path.components ∈ inlined.files.map Path.components ↔ inlined.contains path := by
  rw [h.contains_iff, List.mem_map]
  exact Iff.rfl

/-- A file that is entered gets a place exactly if it has none, so that both still agree. -/
theorem add (h : inlined.IsCoherent) (path : Path) (expanded : String) :
    (inlined.add path expanded).IsCoherent := by
  by_cases hknown : inlined.contains path
  · have hfiles : (inlined.add path expanded).files = inlined.files := by
      rw [files_add, if_pos hknown]
    refine ⟨fun other => ?_, ?_⟩
    · rw [contains_add, hfiles, ← h.contains_iff other, Bool.or_eq_true, decide_eq_true_iff]
      apply or_iff_right_of_imp
      intro hsame
      rwa [← inlined.contains_congr hsame]
    · rw [IsDistinct, hfiles]
      exact h.isDistinct
  · have hfiles := files_add_of_not_contains hknown expanded
    refine ⟨fun other => ?_, ?_⟩
    · rw [contains_add, hfiles, Bool.or_eq_true, decide_eq_true_iff, h.contains_iff other]
      simp [or_comm, or_and_right, exists_or]
    · have hnew : path.components ∉ inlined.files.map Path.components := by
        rwa [h.mem_components_iff]
      rw [IsDistinct, hfiles, List.map_append, List.map_singleton, List.nodup_append]
      refine ⟨h.isDistinct, by simp, ?_⟩
      rintro components hmem _ hlast rfl
      rw [List.mem_singleton] at hlast
      exact hnew (hlast ▸ hmem)

end IsCoherent

end InlinedFiles

end ShaderInline
