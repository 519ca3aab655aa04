import Mathlib.Data.Finset.Card
import ShaderInline.Batch.InlinedFiles

/-!
# Histories of completions

Files are completed in any order, more than once, and under any spelling. A later completion of a
file replaces its digest, and leaves it the place and the spelling that it got from the first one.
So the files stand in the order of their first completions, and the digests tell the last ones. After
every history the table of digests has the files of the order, for each completion keeps it so.
-/
namespace ShaderInline

/-- A file as it was completed: its path as written, and its expanded text. -/
structure Completion where
  path : Path
  expanded : String
  deriving DecidableEq, Repr

namespace InlinedFiles

/-- Enters the files of a history of completions. -/
def addAll (inlined : InlinedFiles) (completions : List Completion) : InlinedFiles :=
  completions.foldl (fun inlined completion => inlined.add completion.path completion.expanded)
    inlined

/-- The paths that name a file which none of the paths before them names. -/
def firstOfEach (paths : List Path) : List Path :=
  paths.eraseDupsBy fun later first => first ≈ later

theorem firstOfEach_cons (first : Path) (paths : List Path) :
    firstOfEach (first :: paths) =
      first :: firstOfEach (paths.filter fun later => !decide (first ≈ later)) := by
  rw [firstOfEach, List.eraseDupsBy_cons]
  simp [firstOfEach]

variable {inlined : InlinedFiles} {completions : List Completion} {path : Path}

theorem addAll_cons (inlined : InlinedFiles) (completion : Completion)
    (completions : List Completion) :
    inlined.addAll (completion :: completions) =
      (inlined.add completion.path completion.expanded).addAll completions := rfl

/-- A file that is completed again makes no other one known. -/
theorem contains_add_of_contains (h : inlined.contains path) (expanded : String) (other : Path) :
    (inlined.add path expanded).contains other = inlined.contains other := by
  rw [contains_add]
  by_cases hsame : path ≈ other
  · rw [← inlined.contains_congr hsame, h, Bool.or_true]
  · simp [hsame]

/-- The files that were not known come behind the others, in the order in which they are completed
first. -/
theorem files_addAll (inlined : InlinedFiles) (completions : List Completion) :
    (inlined.addAll completions).files = inlined.files ++
      firstOfEach ((completions.map (·.path)).filter fun path => !inlined.contains path) := by
  induction completions generalizing inlined with
  | nil => exact (List.append_nil _).symm
  | cons completion completions ih =>
    rw [addAll_cons, ih, files_add, List.map_cons]
    -- A known file is left out on both sides. A new one takes its later spellings out of the rest.
    by_cases hknown : inlined.contains completion.path
    · rw [if_pos hknown, List.filter_cons_of_neg (by simp [hknown])]
      simp only [contains_add_of_contains hknown]
    · rw [if_neg hknown, List.filter_cons_of_pos (by simp [hknown]), firstOfEach_cons,
        List.filter_filter, List.append_assoc, List.singleton_append]
      simp only [contains_add, Bool.not_or]

theorem contains_addAll : (inlined.addAll completions).contains path ↔
    inlined.contains path ∨ ∃ completion ∈ completions, completion.path ≈ path := by
  induction completions generalizing inlined with
  | nil => simp [addAll]
  | cons completion completions ih =>
    rw [addAll_cons, ih, contains_add]
    simp [or_assoc, or_left_comm]

/-- The last completion of a file gives its digest. -/
theorem digest?_addAll (inlined : InlinedFiles) (completions : List Completion) (path : Path) :
    (inlined.addAll completions).digest? path =
      ((completions.findRev? fun completion => completion.path ≈ path).map fun completion =>
        Sha256.ofText completion.expanded).or (inlined.digest? path) := by
  induction completions generalizing inlined with
  | nil => rfl
  | cons completion completions ih =>
    rw [addAll_cons, ih, digest?_add, List.findRev?]
    cases completions.findRev? fun completion => completion.path ≈ path with
    | some later => rfl
    | none => by_cases h : completion.path ≈ path <;> simp [h]

/-- Table and order agree after a history if they did before it. -/
theorem IsCoherent.addAll (h : inlined.IsCoherent) (completions : List Completion) :
    (inlined.addAll completions).IsCoherent := by
  induction completions generalizing inlined with
  | nil => exact h
  | cons completion completions ih => exact ih (h.add completion.path completion.expanded)

theorem IsCoherent.countP_files (h : inlined.IsCoherent) (hknown : inlined.contains path) :
    inlined.files.countP (fun file => file ≈ path) = 1 := by
  calc inlined.files.countP (fun file => file ≈ path)
      = (inlined.files.map Path.components).count path.components := by
        rw [List.count, List.countP_map]
        exact List.countP_congr fun file _ => by simp [Path.equiv_iff]
    _ = 1 := List.count_eq_one_of_mem h.isDistinct ((h.mem_components_iff path).mpr hknown)

theorem IsCoherent.size_eq_card (h : inlined.IsCoherent) :
    inlined.size = (inlined.files.map Path.components).toFinset.card := by
  rw [List.toFinset_card_of_nodup h.isDistinct, List.length_map, size]

theorem contains_addAll_empty : (addAll {} completions).contains path ↔
    ∃ completion ∈ completions, completion.path ≈ path :=
  contains_addAll.trans (or_iff_right (not_contains_empty path))

theorem mem_components_addAll_empty {components : List Component} :
    components ∈ (addAll {} completions).files.map Path.components ↔
      components ∈ completions.map (·.path.components) := by
  have hcoherent : (addAll {} completions).IsCoherent := isCoherent_empty.addAll completions
  rw [List.mem_map, List.mem_map]
  constructor
  · rintro ⟨file, hfile, rfl⟩
    exact contains_addAll_empty.mp ((hcoherent.contains_iff file).mpr ⟨file, hfile, Setoid.refl _⟩)
  · rintro ⟨completion, hmem, rfl⟩
    exact (hcoherent.contains_iff _).mp
      (contains_addAll_empty.mpr ⟨completion, hmem, Setoid.refl _⟩)

/-- What is known after a history of completions. The files stand in the order of their first
completions, as they were written then, and each of them stands there once. A file is known, and
has a digest, exactly if it stands there. Its digest is that of the text it was completed with last,
and the size is the number of different files in the history. -/
theorem addAll_follows_history (completions : List Completion) :
    let inlined := InlinedFiles.addAll {} completions
    inlined.files = firstOfEach (completions.map (·.path)) ∧
    (∀ completion ∈ completions,
      inlined.files.countP (fun file => file ≈ completion.path) = 1) ∧
    (∀ path, inlined.contains path ↔ ∃ file ∈ inlined.files, file ≈ path) ∧
    (∀ path, (inlined.digest? path).isSome ↔ ∃ file ∈ inlined.files, file ≈ path) ∧
    (∀ path, inlined.digest? path =
      (completions.findRev? fun completion => completion.path ≈ path).map fun completion =>
        Sha256.ofText completion.expanded) ∧
    inlined.size = (completions.map (·.path.components)).toFinset.card := by
  intro inlined
  have hcoherent : inlined.IsCoherent := isCoherent_empty.addAll completions
  refine ⟨?_, fun completion hmem => ?_, hcoherent.contains_iff, hcoherent.isSome_digest?_iff,
    fun path => ?_, ?_⟩
  · have hnew : (completions.map (·.path)).filter (fun path => !contains {} path) =
        completions.map (·.path) := List.filter_eq_self.mpr fun path _ => rfl
    rw [files_addAll, hnew]
    rfl
  · exact hcoherent.countP_files
      (contains_addAll_empty.mpr ⟨completion, hmem, Setoid.refl _⟩)
  · exact (digest?_addAll {} completions path).trans Option.or_none
  · rw [hcoherent.size_eq_card, List.toFinset.ext fun _ => mem_components_addAll_empty]

/-- A history in which a file is completed again in another spelling. -/
def completedTwice : List Completion :=
  [⟨⟨"lib//b"⟩, "int b;"⟩, ⟨⟨"a"⟩, "int a;"⟩, ⟨⟨"lib/b/."⟩, "int c;"⟩]

theorem addAll_follows_history_completedTwice :
    let inlined := addAll {} completedTwice
    ⟨⟨"lib/b/."⟩, "int c;"⟩ ∈ completedTwice ∧
    inlined.files = [⟨"lib//b"⟩, ⟨"a"⟩] ∧
    inlined.files.countP (fun file => file ≈ (⟨"lib/b/."⟩ : Path)) = 1 ∧
    inlined.contains ⟨"lib/./b"⟩ ∧
    inlined.digest? ⟨"lib/./b"⟩ = some (Sha256.ofText "int c;") ∧ inlined.size = 2 := by
  intro inlined
  obtain ⟨hfiles, honce, hcontains, _, hdigest, hsize⟩ := addAll_follows_history completedTwice
  have hmem : ⟨⟨"lib/b/."⟩, "int c;"⟩ ∈ completedTwice := by decide
  have hlisted : inlined.files = [⟨"lib//b"⟩, ⟨"a"⟩] := hfiles.trans (by decide +kernel)
  refine ⟨hmem, hlisted, honce _ hmem, ?_, (hdigest _).trans (by decide +kernel),
    hsize.trans (by decide +kernel)⟩
  exact (hcontains _).mpr ⟨⟨"lib//b"⟩, by rw [hlisted]; exact List.mem_cons_self, by decide +kernel⟩

end InlinedFiles

end ShaderInline
