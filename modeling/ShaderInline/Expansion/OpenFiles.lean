import ShaderInline.Path.Basic

/-!
# Open files

The files that are being expanded, outermost first. A file that is open already cannot be entered
again, and the refusal is the cycle of imports that this would close.
-/
namespace ShaderInline

structure OpenFiles where
  files : List Path := []
  deriving DecidableEq, Repr

namespace OpenFiles

def contains (opened : OpenFiles) (path : Path) : Bool := opened.files.any (· ≈ path)

def size (opened : OpenFiles) : Nat := opened.files.length

def isEmpty (opened : OpenFiles) : Bool := opened.files.isEmpty

/-- Enters `path`. The refusal holds the open files from the one that `path` names through the
innermost one, and then `path` itself. -/
def enter (opened : OpenFiles) (path : Path) : Except (List Path) OpenFiles :=
  if opened.contains path then
    .error (opened.files.dropWhile (fun file => !decide (file ≈ path)) ++ [path])
  else
    .ok ⟨opened.files ++ [path]⟩

/-- What is open after an attempt to enter `path`. A refusal changes nothing. -/
def enterIfNew (opened : OpenFiles) (path : Path) : OpenFiles :=
  match opened.enter path with
  | .ok entered => entered
  | .error _ => opened

/-- Leaves the innermost file. -/
def leave (opened : OpenFiles) : Option Path × OpenFiles :=
  (opened.files.getLast?, ⟨opened.files.dropLast⟩)

/-- What is open when `path` has been entered and, if it was not refused, left again. -/
def visit (opened : OpenFiles) (path : Path) : OpenFiles :=
  match opened.enter path with
  | .ok entered => entered.leave.2
  | .error _ => opened

theorem contains_iff {opened : OpenFiles} {path : Path} :
    opened.contains path ↔ ∃ file ∈ opened.files, file ≈ path := by
  simp [contains]

theorem contains_congr (opened : OpenFiles) {path other : Path} (h : path ≈ other) :
    opened.contains path = opened.contains other := by
  unfold contains
  congr 1
  funext file
  exact decide_eq_decide.mpr
    ⟨fun he => Setoid.trans he h, fun he => Setoid.trans he (Setoid.symm h)⟩

/-- The open files with `path` as the innermost one. -/
def push (opened : OpenFiles) (path : Path) : OpenFiles := ⟨opened.files ++ [path]⟩

@[simp] theorem size_push (opened : OpenFiles) (path : Path) :
    (opened.push path).size = opened.size + 1 := by
  simp [push, size]

/-- What was entered last is left first, as it was written. -/
theorem leave_push (opened : OpenFiles) (path : Path) :
    (opened.push path).leave = (some path, opened) := by
  simp [push, leave]

theorem enterIfNew_eq (opened : OpenFiles) (path : Path) :
    opened.enterIfNew path = if opened.contains path then opened else opened.push path := by
  unfold enterIfNew enter
  by_cases h : opened.contains path <;> simp [h, push]

theorem contains_push (opened : OpenFiles) (path other : Path) :
    (opened.push path).contains other = (opened.contains other || decide (path ≈ other)) := by
  simp [push, contains]

theorem enter_eq_ok {opened entered : OpenFiles} {path : Path}
    (h : opened.enter path = .ok entered) :
    ¬ opened.contains path ∧ entered.files = opened.files ++ [path] := by
  unfold enter at h
  split at h
  case isTrue => cases h
  case isFalse hnew =>
    cases h
    exact ⟨hnew, rfl⟩

/-- A refusal is the open files from the first one that `path` names, and then `path`. -/
theorem enter_eq_error {opened : OpenFiles} {path : Path} {chain : List Path}
    (h : opened.enter path = .error chain) :
    ∃ before file cycle, opened.files = before ++ file :: cycle ∧ file ≈ path ∧
      (∀ earlier ∈ before, ¬ earlier ≈ path) ∧ chain = file :: cycle ++ [path] := by
  unfold enter at h
  split at h
  case isFalse => cases h
  case isTrue hopen =>
    cases h
    have hparts := List.takeWhile_append_dropWhile
      (p := fun file => !decide (file ≈ path)) (l := opened.files)
    have hbefore := List.all_takeWhile
      (p := fun file => !decide (file ≈ path)) (l := opened.files)
    have hfirst := List.head?_dropWhile_not (fun file => !decide (file ≈ path)) opened.files
    cases hdrop : opened.files.dropWhile fun file => !decide (file ≈ path) with
    | nil =>
      obtain ⟨known, hknown, hsame⟩ := contains_iff.mp hopen
      rw [hdrop, List.append_nil] at hparts
      rw [hparts] at hbefore
      simpa [hsame] using List.all_eq_true.mp hbefore known hknown
    | cons file cycle =>
      refine ⟨_, file, cycle, (hdrop ▸ hparts).symm, ?_, ?_, rfl⟩
      · simpa [hdrop] using hfirst
      · intro earlier hearlier
        simpa using List.all_eq_true.mp hbefore earlier hearlier

theorem eq_push_of_enter {opened entered : OpenFiles} {path : Path}
    (h : opened.enter path = .ok entered) : entered = opened.push path := by
  obtain ⟨_, hfiles⟩ := enter_eq_ok h
  cases entered
  exact congrArg OpenFiles.mk hfiles

end OpenFiles

end ShaderInline
