import Mathlib.Data.List.Nodup
import ShaderInline.Expansion.OpenFiles

/-!
# Cycles of open files

Files are entered and left in any order, and under any spelling. No file is ever open twice, because
a file that is open is refused. So it is open at one place only, and the refusal is the cycle that
begins there: it comes back to its first file, and no other file is in it twice.
-/
namespace ShaderInline

/-- Whether the files lead from the first one back to it, and are all different on the way. -/
structure Path.IsCycle (chain : List Path) : Prop where
  two_le_length : 2 ≤ chain.length
  closes : ∃ first last, chain.head? = some first ∧ chain.getLast? = some last ∧ first ≈ last
  distinct : (chain.dropLast.map Path.components).Nodup

theorem Path.IsCycle.of_same {file path : Path} {inner : List Path} (hsame : file ≈ path)
    (hdistinct : ((file :: inner).map Path.components).Nodup) :
    Path.IsCycle (file :: inner ++ [path]) where
  two_le_length := by simp
  closes := ⟨file, path, rfl, List.getLast?_concat, hsame⟩
  distinct := by rwa [List.dropLast_concat]

namespace OpenFiles

/-- What is done to the open files. -/
inductive Action where
  | enter (path : Path)
  | leave

/-- What is open after an action. -/
def perform (opened : OpenFiles) : Action → OpenFiles
  | .enter path => opened.enterIfNew path
  | .leave => opened.leave.2

/-- What is open after a history of actions. -/
def after (opened : OpenFiles) (actions : List Action) : OpenFiles := actions.foldl perform opened

/-- Whether no file is open twice. -/
def IsDistinct (opened : OpenFiles) : Prop := (opened.files.map Path.components).Nodup

variable {opened : OpenFiles} {path : Path} {chain : List Path}

theorem contains_iff_mem : opened.contains path ↔
    path.components ∈ opened.files.map Path.components := by
  rw [contains_iff, List.mem_map]
  exact Iff.rfl

/-- A file is refused exactly if it is open. -/
theorem exists_refusal_iff : (∃ chain, opened.enter path = .error chain) ↔
    opened.contains path := by
  constructor
  · rintro ⟨chain, hrefused⟩
    by_contra hnew
    rw [enter, if_neg hnew] at hrefused
    cases hrefused
  · exact fun hopen => ⟨_, if_pos hopen⟩

theorem isDistinct_empty : IsDistinct {} := List.nodup_nil

namespace IsDistinct

theorem push (h : opened.IsDistinct) (hnew : ¬ opened.contains path) :
    (opened.push path).IsDistinct := by
  rw [contains_iff_mem] at hnew
  rw [IsDistinct, OpenFiles.push, List.map_append, List.map_singleton, ← List.concat_eq_append]
  exact h.concat hnew

theorem leave (h : opened.IsDistinct) : opened.leave.2.IsDistinct :=
  h.sublist ((List.dropLast_sublist opened.files).map Path.components)

/-- An action opens no file a second time. -/
theorem perform (h : opened.IsDistinct) (action : Action) : (opened.perform action).IsDistinct := by
  cases action with
  | enter path =>
    rw [OpenFiles.perform, enterIfNew_eq]
    split
    case isTrue => exact h
    case isFalse hnew => exact h.push hnew
  | leave => exact h.leave

/-- No history of actions opens a file a second time. -/
theorem after (h : opened.IsDistinct) (actions : List Action) :
    (opened.after actions).IsDistinct := by
  induction actions generalizing opened with
  | nil => exact h
  | cons action actions ih => exact ih (h.perform action)

/-- A refused file is open at one place, and the refusal is the cycle that begins there. -/
theorem exists_cycle (h : opened.IsDistinct) (hrefused : opened.enter path = .error chain) :
    ∃ before file inner, opened.files = before ++ file :: inner ∧ file ≈ path ∧
      (∀ other ∈ before ++ inner, ¬ other ≈ path) ∧ chain = file :: inner ++ [path] ∧
      Path.IsCycle chain := by
  obtain ⟨before, file, inner, hfiles, hsame, hbefore, rfl⟩ := enter_eq_error hrefused
  rw [IsDistinct, hfiles, List.map_append] at h
  have hcycle : ((file :: inner).map Path.components).Nodup := h.of_append_right
  refine ⟨before, file, inner, hfiles, hsame, ?_, rfl, .of_same hsame hcycle⟩
  intro other hother hother_same
  rcases List.mem_append.mp hother with hmem | hmem
  · exact hbefore other hmem hother_same
  · -- The same file inside the cycle would be open twice, because the cycle begins with it.
    have hfile : other.components = file.components := Setoid.trans hother_same (Setoid.symm hsame)
    have hinner : file.components ∈ inner.map Path.components := hfile ▸ List.mem_map_of_mem hmem
    exact (List.nodup_cons.mp hcycle).1 hinner

end IsDistinct

/-- Whatever was entered and left before, no file is open twice. A file is refused exactly if it is
open. A refusal changes nothing and tells the cycle that it prevents: the files from the one that
is entered again through the innermost one, and then that file as it was asked for. A file that is
not refused is the one that is left next, and then the same files are open as before. -/
theorem after_refuses_cycles (actions : List Action) :
    let opened := OpenFiles.after {} actions
    opened.IsDistinct ∧ ∀ path,
      ((∃ chain, opened.enter path = .error chain) ↔ opened.contains path) ∧
      (∀ chain, opened.enter path = .error chain →
        opened.perform (.enter path) = opened ∧
        ∃ before file inner, opened.files = before ++ file :: inner ∧ file ≈ path ∧
          (∀ other ∈ before ++ inner, ¬ other ≈ path) ∧ chain = file :: inner ++ [path] ∧
          Path.IsCycle chain) ∧
      ∀ entered, opened.enter path = .ok entered →
        opened.perform (.enter path) = entered ∧ entered.leave = (some path, opened) := by
  intro opened
  have hdistinct : opened.IsDistinct := isDistinct_empty.after actions
  refine ⟨hdistinct, fun path => ⟨exists_refusal_iff, fun chain hrefused => ?_,
    fun entered hentered => ?_⟩⟩
  · have hopen : opened.contains path := exists_refusal_iff.mp ⟨chain, hrefused⟩
    have hsame : opened.perform (.enter path) = opened := by
      rw [perform, enterIfNew_eq, if_pos hopen]
    exact ⟨hsame, hdistinct.exists_cycle hrefused⟩
  · obtain rfl := eq_push_of_enter hentered
    have hnew := (enter_eq_ok hentered).1
    have hpushed : opened.perform (.enter path) = opened.push path := by
      rw [perform, enterIfNew_eq, if_neg hnew]
    exact ⟨hpushed, leave_push opened path⟩

/-- A history in which one file is left again, and one is refused in another spelling. A path that
begins with a dot names another file. -/
def respelledPaths : List Action :=
  [.enter ⟨"a//b"⟩, .enter ⟨"c"⟩, .enter ⟨"d"⟩, .leave, .enter ⟨"a/./b/"⟩, .enter ⟨"./c"⟩]

theorem after_refuses_cycles_respelledPaths :
    let opened := OpenFiles.after {} respelledPaths
    let chain : List Path := [⟨"c"⟩, ⟨"./c"⟩, ⟨"c/."⟩]
    opened.files = [⟨"a//b"⟩, ⟨"c"⟩, ⟨"./c"⟩] ∧ opened.IsDistinct ∧
    opened.enter ⟨"c/."⟩ = .error chain ∧ opened.perform (.enter ⟨"c/."⟩) = opened ∧
    Path.IsCycle chain ∧
    ∃ entered, opened.enter ⟨"d/"⟩ = .ok entered ∧ entered.leave = (some ⟨"d/"⟩, opened) := by
  intro opened chain
  have hrefused : opened.enter ⟨"c/."⟩ = .error chain := by decide +kernel
  have hentered : opened.enter ⟨"d/"⟩ = .ok (opened.push ⟨"d/"⟩) := by decide +kernel
  obtain ⟨hdistinct, hpaths⟩ := after_refuses_cycles respelledPaths
  obtain ⟨hsame, _, _, _, _, _, _, _, hcycle⟩ := (hpaths ⟨"c/."⟩).2.1 chain hrefused
  obtain ⟨_, hleft⟩ := (hpaths ⟨"d/"⟩).2.2 _ hentered
  exact ⟨by decide +kernel, hdistinct, hrefused, hsame, hcycle, _, hentered, hleft⟩

end OpenFiles

end ShaderInline
