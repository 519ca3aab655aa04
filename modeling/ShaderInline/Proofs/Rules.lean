import ShaderInline.Proofs.RunStep

/-!
# The rules of expansion

An expansion as a relation between the run it starts from, what it comes to, and the run it ends
in. There is one rule for each way in which a file or a line can be dealt with, and each rule for a
line says which line of which file it is. A property of expansions is proved by one induction on the
rules.
-/
namespace ShaderInline

variable {σ : Type}

theorem map_eq_ok_iff {ε α β : Type} {result : Except ε α} {f : α → β} {b : β} :
    result.map f = .ok b ↔ ∃ a, result = .ok a ∧ f a = b := by
  cases result <;> simp [Except.map]

theorem map_eq_error_iff {ε α β : Type} {result : Except ε α} {f : α → β} {e : ε} :
    result.map f = .error e ↔ result = .error e := by
  cases result <;> simp [Except.map]

@[simp] theorem isOk_map {ε α β : Type} (result : Except ε α) (f : α → β) :
    (result.map f).isOk = result.isOk := by
  cases result <;> rfl

/-- What is left to do below the open files. -/
inductive Task where
  | file (path : Path)
  /-- The lines of the innermost open file from a number on. The first `skip` of them lie in a block
  that is passed over. -/
  | lines (file : Path) (lines : List String) (number skip : Nat)

/-- Whether a file was read, and these are its lines from a number on. -/
def Run.Walks (run : Run σ) (file : Path) (number : Nat) (lines : List String) : Prop :=
  ∃ content before, run.HasRead file content ∧ Text.lines content = before ++ lines ∧
    number = before.length + 1

namespace Run.Walks

variable {run after : Run σ} {file : Path} {number : Nat} {line : String} {lines : List String}

theorem mono (h : run.Walks file number lines) (hsub : run.events ⊆ after.events) :
    after.Walks file number lines := by
  obtain ⟨content, before, hread, hlines⟩ := h
  exact ⟨content, before, hread.mono hsub, hlines⟩

theorem tail (h : run.Walks file number (line :: lines)) :
    run.Walks file (number + 1) lines := by
  obtain ⟨content, before, hread, hlines, hnumber⟩ := h
  refine ⟨content, before ++ [line], hread, by simp [hlines], ?_⟩
  rw [List.length_append, List.length_singleton, hnumber]

theorem hasLine (h : run.Walks file number (line :: lines)) :
    run.HasLine file number line := by
  obtain ⟨content, before, hread, hlines, rfl⟩ := h
  exact ⟨content, hread, Text.line?_of_eq_append hlines⟩

theorem mem_reads (h : run.Walks file number lines) : file ∈ run.reads := by
  obtain ⟨content, before, hread, _⟩ := h
  exact hread.mem_reads

end Run.Walks

/-- Whether an import of `path` only refers to a text that was inlined before. -/
def Run.Refers (run : Run σ) (opened : OpenFiles) (path : Path) : Prop :=
  ¬ opened.contains path ∧ run.state.inlined.contains path

/-- `Expands provider directives limit opened task run result after`: with `limit` files left to
nest, the task takes `run` to `after` and comes to `result`. -/
inductive Expands (provider : Provider σ) (directives : Directives) :
    Nat → OpenFiles → Task → Run σ → Except Stop ExpansionTree → Run σ → Prop where
  | tooDeep : Expands provider directives 0 opened (.file path) run (.error .tooDeep) run
  | circular (henter : opened.enter path = .error chain) :
      Expands provider directives (limit + 1) opened (.file path) run
        (.error (.failed (.circular chain))) run
  | unreadable (henter : opened.enter path = .ok entered)
      (hread : (provider.read path run.source).1 = .error cause) :
      Expands provider directives (limit + 1) opened (.file path) run
        (.error (.failed (.unreadable path cause))) (run.asked provider path entered.size)
  | alreadyIncluded (henter : opened.enter path = .ok entered)
      (hread : (provider.read path run.source).1 = .ok content)
      (honce : directives.guardsOnce (Text.lines content)) (hknown : run.state.isGuarded path) :
      Expands provider directives (limit + 1) opened (.file path) run (.ok .alreadyIncluded)
        ((run.asked provider path entered.size).noted (.skippedFile path))
  | entered (henter : opened.enter path = .ok entered)
      (hread : (provider.read path run.source).1 = .ok content)
      (hnew : directives.guardsOnce (Text.lines content) → ¬ run.state.isGuarded path)
      (hwalk : Expands provider directives limit entered (.lines path (Text.lines content) 1 0)
        ((run.asked provider path entered.size).begun directives path content) result after) :
      Expands provider directives (limit + 1) opened (.file path) run result after
  | done (hat : run.Walks file number []) :
      Expands provider directives limit opened (.lines file [] number skip) run (.ok .done) run
  | inBlock (hat : run.Walks file number (line :: lines))
      (hrest : Expands provider directives limit opened (.lines file lines (number + 1) skip) run
        result after) :
      Expands provider directives limit opened (.lines file (line :: lines) number (skip + 1)) run
        (result.map (.skipped line)) after
  | malformed (hat : run.Walks file number (line :: lines))
      (hline : ImportReading.ofLine directives line = .malformed) :
      Expands provider directives limit opened (.lines file (line :: lines) number 0) run
        (.error (.failed (.malformed file number (Text.trim line)))) run
  | unresolved (hat : run.Walks file number (line :: lines))
      (hline : ImportReading.ofLine directives line = .directive importText trailing)
      (hresolve : (provider.resolve importText file run.source).1 = .error cause) :
      Expands provider directives limit opened (.lines file (line :: lines) number 0) run
        (.error (.failed
          (.imported importText file number (.unreadable (Path.normal importText) cause))))
        (run.consulted provider file number importText trailing)
  | alreadyImported (hat : run.Walks file number (line :: lines))
      (hline : ImportReading.ofLine directives line = .directive importText trailing)
      (hresolve : (provider.resolve importText file run.source).1 = .ok path)
      (hknown : run.Refers opened path)
      (hrest : Expands provider directives limit opened (.lines file lines (number + 1) 0)
        (run.consulted provider file number importText trailing) result after) :
      Expands provider directives limit opened (.lines file (line :: lines) number 0) run
        (result.map (.alreadyImported importText path)) after
  | failedImport (hat : run.Walks file number (line :: lines))
      (hline : ImportReading.ofLine directives line = .directive importText trailing)
      (hresolve : (provider.resolve importText file run.source).1 = .ok path)
      (hfresh : ¬ run.Refers opened path)
      (hchild : Expands provider directives limit opened (.file path)
        (run.consulted provider file number importText trailing) (.error stop) after) :
      Expands provider directives limit opened (.lines file (line :: lines) number 0) run
        (.error (stop.imported importText file number)) after
  | inlined (hat : run.Walks file number (line :: lines))
      (hline : ImportReading.ofLine directives line = .directive importText trailing)
      (hresolve : (provider.resolve importText file run.source).1 = .ok path)
      (hfresh : ¬ run.Refers opened path)
      (hchild : Expands provider directives limit opened (.file path)
        (run.consulted provider file number importText trailing) (.ok tree) middle)
      (hrest : Expands provider directives limit opened (.lines file lines (number + 1) 0)
        (middle.completed path (tree.flatten path).text) result after) :
      Expands provider directives limit opened (.lines file (line :: lines) number 0) run
        (result.map (.inlined importText path tree)) after
  | plain (hat : run.Walks file number (line :: lines))
      (hline : ImportReading.ofLine directives line = .absent)
      (hguard : openedGuard? line lines = none)
      (hrest : Expands provider directives limit opened (.lines file lines (number + 1) 0) run
        result after) :
      Expands provider directives limit opened (.lines file (line :: lines) number 0) run
        (result.map (.copied line none)) after
  | opening (hat : run.Walks file number (line :: lines))
      (hline : ImportReading.ofLine directives line = .absent)
      (hguard : openedGuard? line lines = some name)
      (hfresh : ¬ run.state.namedGuards.contains name)
      (hrest : Expands provider directives limit opened (.lines file lines (number + 1) 0)
        (run.defined name) result after) :
      Expands provider directives limit opened (.lines file (line :: lines) number 0) run
        (result.map (.copied line (some name))) after
  | skippedBlock (hat : run.Walks file number (line :: lines))
      (hline : ImportReading.ofLine directives line = .absent)
      (hguard : openedGuard? line lines = some name)
      (hknown : run.state.namedGuards.contains name)
      (hrest : Expands provider directives limit opened
        (.lines file lines (number + 1) (blockLength 1 lines))
        (run.noted (.skippedGuard name file number)) result after) :
      Expands provider directives limit opened (.lines file (line :: lines) number 0) run
        (result.map (.skipped line)) after

namespace Expands

variable {provider : Provider σ} {directives : Directives} {limit : Nat} {opened : OpenFiles}
  {task : Task} {run after : Run σ} {result : Except Stop ExpansionTree}

/-- A run that follows the rules goes on step by step. -/
theorem steps (h : Expands provider directives limit opened task run result after) :
    run.Steps provider after := by
  induction h with
  | tooDeep | circular | done | malformed => exact .refl
  | unreadable => exact .single (.asked _ _ _)
  | alreadyIncluded => exact .head (.asked _ _ _) (.single (.skippedFile _ _))
  | entered _ _ _ _ ih => exact (Run.Steps.begun _ _ _ _ _ _).trans ih
  | unresolved => exact .consulted _ _ _ _ _ _
  | alreadyImported _ _ _ _ _ ih => exact (Run.Steps.consulted _ _ _ _ _ _).trans ih
  | failedImport _ _ _ _ _ ih => exact (Run.Steps.consulted _ _ _ _ _ _).trans ih
  | inlined _ _ _ _ _ _ ihchild ihrest =>
    have hchild := (Run.Steps.consulted _ _ _ _ _ _).trans ihchild
    exact hchild.trans (.head (.completed _ _ _) ihrest)
  | inBlock _ _ ih => exact ih
  | plain _ _ _ _ ih => exact ih
  | opening _ _ _ _ _ ih => exact .head (.defined _ _) ih
  | skippedBlock _ _ _ _ _ ih => exact .head (.skippedGuard _ _ _ _) ih

theorem events_prefix (h : Expands provider directives limit opened task run result after) :
    run.events <+: after.events :=
  h.steps.events_prefix

theorem reads_prefix (h : Expands provider directives limit opened task run result after) :
    run.reads <+: after.reads :=
  h.steps.reads_prefix

end Expands

end ShaderInline
