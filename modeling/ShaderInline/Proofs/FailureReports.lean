import Mathlib.Data.List.Basic
import ShaderInline.Expansion.Failure

/-!
# Reports of failures

A failure is told in several ways that all follow its nesting. The root is where the imports end,
and it gives the kind. The report has a line for each import and then the root, each two blanks
further to the right than the one before, and the members of a cycle go on in the same way. The
causes are the messages of what lies inside, and the reason of the provider if the root has one.
-/
namespace ShaderInline

namespace Failure

/-- The failure of the imported file. -/
def inner? : Failure → Option Failure
  | imported _ _ _ inner => some inner
  | unreadable _ _ | circular _ | malformed _ _ _ => none

/-- The reason that a provider gave. -/
def reason? : Failure → Option String
  | unreadable _ cause => some cause
  | circular _ | malformed _ _ _ | imported _ _ _ _ => none

/-- The lines of a report: what lies inside an import stands two blanks to the right of it. -/
def outline : Failure → List String
  | failure@(imported _ _ _ inner) => failure.message :: inner.outline.map ("  " ++ ·)
  | circular chain =>
    "circular import detected:" :: chain.mapIdx fun index path =>
      String.ofList (List.replicate (2 * (index + 1)) ' ') ++ "-> " ++ path.text
  | failure => [failure.message]

theorem root_ne_imported (failure : Failure) (importText : String) (importer : Path) (line : Nat)
    (inner : Failure) : failure.root ≠ imported importText importer line inner := by
  induction failure with
  | imported _ _ _ _ ih => exact ih
  | unreadable | circular | malformed => nofun

theorem kind_root (failure : Failure) : failure.root.kind = failure.kind := by
  induction failure with
  | imported _ _ _ _ ih => exact ih
  | unreadable | circular | malformed => rfl

section Indentation

theorem indentation_add (depth more : Nat) :
    indentation (depth + more) = indentation depth ++ indentation more := by
  rw [indentation, indentation, indentation, ← String.ofList_append, List.replicate_append_replicate,
    Nat.mul_add]

theorem indentation_succ_append (depth : Nat) (text : String) :
    indentation (depth + 1) ++ text = indentation depth ++ ("  " ++ text) := by
  rw [indentation_add, String.append_assoc]
  rfl

/-- The members of a cycle are indented by their places in it. -/
theorem chainLines_eq (depth : Nat) (chain : List Path) :
    chainLines depth chain = chain.mapIdx fun index path =>
      indentation (depth + index) ++ "-> " ++ path.text := by
  induction chain generalizing depth with
  | nil => rfl
  | cons path chain ih =>
    rw [chainLines, ih, List.mapIdx_cons]
    simp only [Nat.add_zero, Nat.add_assoc, Nat.add_comm 1]

theorem chainLines_add (depth more : Nat) (chain : List Path) :
    chainLines (depth + more) chain = (chainLines more chain).map (indentation depth ++ ·) := by
  induction chain generalizing more with
  | nil => rfl
  | cons path chain ih =>
    rw [chainLines, chainLines, List.map_cons, Nat.add_assoc, ih, indentation_add]
    simp only [String.append_assoc]

theorem outline_circular (chain : List Path) :
    (circular chain).outline = "circular import detected:" :: chainLines 1 chain := by
  rw [outline, chainLines_eq]
  simp only [Nat.add_comm 1]
  rfl

/-- A report that begins at some depth is the outline, moved to the right by that depth. -/
theorem reportLines_eq (depth : Nat) (failure : Failure) :
    failure.reportLines depth = failure.outline.map (indentation depth ++ ·) := by
  induction failure generalizing depth with
  | unreadable | malformed => rfl
  | circular chain => rw [reportLines, outline_circular, chainLines_add, List.map_cons]
  | imported importText importer line inner ih =>
    rw [reportLines, outline, ih, List.map_cons, List.map_map]
    congr 2
    funext text
    exact indentation_succ_append depth text

theorem report_eq (failure : Failure) :
    failure.report = String.intercalate "\n" failure.outline := by
  have hnone : (fun text => indentation 0 ++ text) = id := funext fun _ => String.empty_append
  rw [report, reportLines_eq, hnone, List.map_id]

end Indentation

/-- The failures inside a failure lead down to its root, and their messages are its causes. -/
theorem exists_sources (failure : Failure) :
    ∃ sources : List Failure,
      List.IsChain (fun outer inner => outer.inner? = some inner) (failure :: sources) ∧
      (failure :: sources).getLast? = some failure.root ∧
      failure.causes = sources.map message ++ failure.root.reason?.toList := by
  induction failure with
  | unreadable | circular | malformed => exact ⟨[], .singleton _, rfl, rfl⟩
  | imported importText importer line inner ih =>
    obtain ⟨sources, hchain, hlast, hcauses⟩ := ih
    refine ⟨inner :: sources, List.isChain_cons_cons.mpr ⟨rfl, hchain⟩, ?_, ?_⟩
    · rw [List.getLast?_cons_cons]
      exact hlast
    · rw [causes, hcauses]
      rfl

theorem isSome_reason?_root (failure : Failure) :
    failure.root.reason?.isSome ↔ failure.kind = .fileNotFound := by
  rw [← kind_root]
  have hroot := failure.root_ne_imported
  cases h : failure.root with
  | imported importText importer line inner => exact absurd h (hroot _ _ _ _)
  | unreadable | circular | malformed => simp [reason?, kind]

/-- All that is told of a failure agrees with its nesting. The root is no import and gives the kind,
the report has the lines of the outline, and the causes are the messages of the failures down to the
root, followed by the reason of the provider exactly if a file was not found. -/
theorem accounts_agree (failure : Failure) :
    (∀ importText importer line inner,
      failure.root ≠ imported importText importer line inner) ∧
    failure.kind = failure.root.kind ∧
    failure.report = String.intercalate "\n" failure.outline ∧
    ∃ sources : List Failure,
      List.IsChain (fun outer inner => outer.inner? = some inner) (failure :: sources) ∧
      (failure :: sources).getLast? = some failure.root ∧
      failure.causes = sources.map message ++ failure.root.reason?.toList ∧
      (failure.root.reason?.isSome ↔ failure.kind = .fileNotFound) := by
  obtain ⟨sources, hchain, hlast, hcauses⟩ := failure.exists_sources
  exact ⟨failure.root_ne_imported, failure.kind_root.symm, failure.report_eq, sources, hchain, hlast,
    hcauses, failure.isSome_reason?_root⟩

/-- The members of a cycle stand to the right of the import that led to it. -/
example : (imported "b" ⟨"a"⟩ 3 (circular [⟨"a"⟩, ⟨"b"⟩, ⟨"a"⟩])).report =
    "error importing \"b\" from a (line 3)\n  circular import detected:\n    -> a\n      -> b\n" ++
      "        -> a" := by
  decide +kernel

end Failure

end ShaderInline
