import ShaderInline.Proofs.ReadOnce

/-!
# Successful expansions

The rules of expansion for runs that succeed. A limit that was not met plays no part in them, and
the lines that bring in no file share one rule. What is true of the outputs of successful calls is
proved by induction on these rules. They derive the same trees as the rules of expansion do under
some limit, so every fact about expansions is also one about successful ones.
-/
namespace ShaderInline

variable {σ : Type}

/-- `Passes provider directives opened file number line lines skip run node rest after`: the line is
dealt with on its own, which takes `run` to `after` and adds `node` to the tree. Of the lines behind
it, `rest` are still to be passed over. -/
inductive Passes (provider : Provider σ) (directives : Directives) (opened : OpenFiles)
    (file : Path) (number : Nat) (line : String) (lines : List String) :
    Nat → Run σ → (ExpansionTree → ExpansionTree) → Nat → Run σ → Prop where
  | inBlock : Passes provider directives opened file number line lines (skip + 1) run
      (.skipped line) skip run
  | alreadyImported
      (hline : ImportReading.ofLine directives line = .directive importText trailing)
      (hresolve : (provider.resolve importText file run.source).1 = .ok path)
      (hknown : run.Refers opened path) :
      Passes provider directives opened file number line lines 0 run
        (.alreadyImported importText path) 0
        (run.consulted provider file number importText trailing)
  | plain (hline : ImportReading.ofLine directives line = .absent)
      (hguard : openedGuard? line lines = none) :
      Passes provider directives opened file number line lines 0 run (.copied line none) 0 run
  | opening (hline : ImportReading.ofLine directives line = .absent)
      (hguard : openedGuard? line lines = some name)
      (hfresh : ¬ run.state.namedGuards.contains name) :
      Passes provider directives opened file number line lines 0 run (.copied line (some name)) 0
        (run.defined name)
  | skippedBlock (hline : ImportReading.ofLine directives line = .absent)
      (hguard : openedGuard? line lines = some name)
      (hknown : run.state.namedGuards.contains name) :
      Passes provider directives opened file number line lines 0 run (.skipped line)
        (blockLength 1 lines) (run.noted (.skippedGuard name file number))

/-- `Yields provider directives opened task run tree after`: below the open files the task succeeds,
takes `run` to `after` and comes to `tree`. -/
inductive Yields (provider : Provider σ) (directives : Directives) :
    OpenFiles → Task → Run σ → ExpansionTree → Run σ → Prop where
  | alreadyIncluded {opened : OpenFiles} {path : Path} {run : Run σ} {content : String}
      (hclosed : ¬ opened.contains path)
      (hread : (provider.read path run.source).1 = .ok content)
      (honce : directives.guardsOnce (Text.lines content)) (hknown : run.state.isGuarded path) :
      Yields provider directives opened (.file path) run .alreadyIncluded
        ((run.asked provider path (opened.push path).size).noted (.skippedFile path))
  | entered {opened : OpenFiles} {path : Path} {run : Run σ} {content : String}
      {tree : ExpansionTree} {after : Run σ} (hclosed : ¬ opened.contains path)
      (hread : (provider.read path run.source).1 = .ok content)
      (hnew : directives.guardsOnce (Text.lines content) → ¬ run.state.isGuarded path)
      (hwalk : Yields provider directives (opened.push path) (.lines path (Text.lines content) 1 0)
        ((run.asked provider path (opened.push path).size).begun directives path content)
        tree after) :
      Yields provider directives opened (.file path) run tree after
  | done (hat : run.Walks file number []) :
      Yields provider directives opened (.lines file [] number skip) run .done run
  | passed {opened : OpenFiles} {file : Path} {number : Nat} {line : String} {lines : List String}
      {skip : Nat} {run : Run σ} {node : ExpansionTree → ExpansionTree} {left : Nat}
      {middle : Run σ} {rest : ExpansionTree} {after : Run σ}
      (hat : run.Walks file number (line :: lines))
      (hline : Passes provider directives opened file number line lines skip run node left middle)
      (hrest : Yields provider directives opened (.lines file lines (number + 1) left) middle
        rest after) :
      Yields provider directives opened (.lines file (line :: lines) number skip) run
        (node rest) after
  | inlined {opened : OpenFiles} {file : Path} {number : Nat} {line : String} {lines : List String}
      {importText : String} {trailing : Option String} {path : Path} {run : Run σ}
      {content : ExpansionTree} {middle : Run σ} {rest : ExpansionTree} {after : Run σ}
      (hat : run.Walks file number (line :: lines))
      (hline : ImportReading.ofLine directives line = .directive importText trailing)
      (hresolve : (provider.resolve importText file run.source).1 = .ok path)
      (hfresh : ¬ run.Refers opened path)
      (hchild : Yields provider directives opened (.file path)
        (run.consulted provider file number importText trailing) content middle)
      (hrest : Yields provider directives opened (.lines file lines (number + 1) 0)
        (middle.completed path (content.flatten path).text) rest after) :
      Yields provider directives opened (.lines file (line :: lines) number 0) run
        (.inlined importText path content rest) after

section Rules

variable {provider : Provider σ} {directives : Directives} {limit : Nat} {opened : OpenFiles}
  {task : Task} {run after : Run σ} {result : Except Stop ExpansionTree} {tree : ExpansionTree}

theorem Expands.yields (h : Expands provider directives limit opened task run result after)
    (hresult : result = .ok tree) : Yields provider directives opened task run tree after := by
  induction h generalizing tree with
  | tooDeep | circular | unreadable | malformed | unresolved | failedImport => cases hresult
  | alreadyIncluded henter hread honce hknown =>
    cases hresult
    obtain ⟨hclosed, _⟩ := OpenFiles.enter_eq_ok henter
    obtain rfl := OpenFiles.eq_push_of_enter henter
    exact .alreadyIncluded hclosed hread honce hknown
  | entered henter hread hnew _ ih =>
    obtain ⟨hclosed, _⟩ := OpenFiles.enter_eq_ok henter
    obtain rfl := OpenFiles.eq_push_of_enter henter
    exact .entered hclosed hread hnew (ih hresult)
  | done hat =>
    cases hresult
    exact .done hat
  | inBlock hat _ ih =>
    obtain ⟨rest, rfl, rfl⟩ := map_eq_ok_iff.mp hresult
    exact .passed hat .inBlock (ih rfl)
  | alreadyImported hat hline hresolve hknown _ ih =>
    obtain ⟨rest, rfl, rfl⟩ := map_eq_ok_iff.mp hresult
    exact .passed hat (.alreadyImported hline hresolve hknown) (ih rfl)
  | inlined hat hline hresolve hfresh _ _ ihchild ihrest =>
    obtain ⟨rest, rfl, rfl⟩ := map_eq_ok_iff.mp hresult
    exact .inlined hat hline hresolve hfresh (ihchild rfl) (ihrest rfl)
  | plain hat hline hguard _ ih =>
    obtain ⟨rest, rfl, rfl⟩ := map_eq_ok_iff.mp hresult
    exact .passed hat (.plain hline hguard) (ih rfl)
  | opening hat hline hguard hfresh _ ih =>
    obtain ⟨rest, rfl, rfl⟩ := map_eq_ok_iff.mp hresult
    exact .passed hat (.opening hline hguard hfresh) (ih rfl)
  | skippedBlock hat hline hguard hknown _ ih =>
    obtain ⟨rest, rfl, rfl⟩ := map_eq_ok_iff.mp hresult
    exact .passed hat (.skippedBlock hline hguard hknown) (ih rfl)

theorem OpenFiles.enter_of_not_contains {opened : OpenFiles} {path : Path}
    (h : ¬ opened.contains path) : opened.enter path = .ok (opened.push path) := if_neg h

theorem Passes.expands {middle : Run σ} {file : Path} {number skip left : Nat} {line : String}
    {lines : List String} {node : ExpansionTree → ExpansionTree}
    (h : Passes provider directives opened file number line lines skip run node left middle)
    (hat : run.Walks file number (line :: lines))
    (hrest : Expands provider directives limit opened (.lines file lines (number + 1) left) middle
      (.ok tree) after) :
    Expands provider directives limit opened (.lines file (line :: lines) number skip) run
      (.ok (node tree)) after := by
  cases h with
  | inBlock => exact .inBlock hat hrest
  | alreadyImported hline hresolve hknown => exact .alreadyImported hat hline hresolve hknown hrest
  | plain hline hguard => exact .plain hat hline hguard hrest
  | opening hline hguard hfresh => exact .opening hat hline hguard hfresh hrest
  | skippedBlock hline hguard hknown => exact .skippedBlock hat hline hguard hknown hrest

/-- Whatever succeeds does so under some limit, and under all larger ones. -/
theorem Yields.exists_expands (h : Yields provider directives opened task run tree after) :
    ∃ limit, Expands provider directives limit opened task run (.ok tree) after := by
  induction h with
  | alreadyIncluded hclosed hread honce hknown =>
    exact ⟨1, .alreadyIncluded (OpenFiles.enter_of_not_contains hclosed) hread honce hknown⟩
  | entered hclosed hread hnew _ ih =>
    obtain ⟨limit, hwalk⟩ := ih
    exact ⟨limit + 1, .entered (OpenFiles.enter_of_not_contains hclosed) hread hnew hwalk⟩
  | done hat => exact ⟨0, .done hat⟩
  | passed hat hline _ ih =>
    obtain ⟨limit, hrest⟩ := ih
    exact ⟨limit, hline.expands hat hrest⟩
  | inlined hat hline hresolve hfresh _ _ ihchild ihrest =>
    obtain ⟨below, hchild⟩ := ihchild
    obtain ⟨limit, hrest⟩ := ihrest
    have hfirst := hchild.limit_mono (Nat.le_max_left below limit) (by simp)
    have hsecond := hrest.limit_mono (Nat.le_max_right below limit) (by simp)
    exact ⟨max below limit, .inlined hat hline hresolve hfresh hfirst hsecond⟩

end Rules

namespace Passes

variable {provider : Provider σ} {directives : Directives} {opened : OpenFiles} {file : Path}
  {number skip left : Nat} {line : String} {lines : List String} {run after : Run σ}
  {node : ExpansionTree → ExpansionTree}

theorem steps (h : Passes provider directives opened file number line lines skip run node left
    after) : run.Steps provider after := by
  cases h with
  | inBlock | plain => exact .refl
  | alreadyImported => exact .consulted _ _ _ _ _ _
  | opening => exact .single (.defined _ _)
  | skippedBlock => exact .single (.skippedGuard _ _ _ _)

/-- A line that brings in no file reads none. -/
theorem identities_eq (h : Passes provider directives opened file number line lines skip run node
    left after) : after.identities = run.identities := by
  cases h with
  | inBlock | plain | opening => rfl
  | alreadyImported => simp
  | skippedBlock => simp [Run.identities]

theorem inlined_eq (h : Passes provider directives opened file number line lines skip run node
    left after) : after.state.inlined = run.state.inlined := by
  cases h with
  | inBlock | plain | opening | skippedBlock => rfl
  | alreadyImported => simp

end Passes

namespace Yields

variable {provider : Provider σ} {directives : Directives} {opened : OpenFiles} {task : Task}
  {run after : Run σ} {tree : ExpansionTree}

theorem steps (h : Yields provider directives opened task run tree after) :
    run.Steps provider after := by
  obtain ⟨limit, hexpands⟩ := h.exists_expands
  exact hexpands.steps

theorem events_prefix (h : Yields provider directives opened task run tree after) :
    run.events <+: after.events :=
  h.steps.events_prefix

theorem identities_prefix (h : Yields provider directives opened task run tree after) :
    run.identities <+: after.identities :=
  Run.identities_prefix h.events_prefix

/-- A file that was expanded has been read. -/
theorem mem_reads {path : Path} (h : Yields provider directives opened (.file path) run tree after) :
    path ∈ after.reads := by
  cases h with
  | alreadyIncluded => simp
  | entered _ _ _ hwalk =>
    obtain ⟨limit, hexpands⟩ := hwalk.exists_expands
    exact hexpands.reads_prefix.subset (by simp)

/-- A file that is open is not expanded. -/
theorem not_contains {path : Path}
    (h : Yields provider directives opened (.file path) run tree after) :
    ¬ opened.contains path := by
  cases h with
  | alreadyIncluded hclosed => exact hclosed
  | entered hclosed => exact hclosed

/-- Lines that are walked do not come to the marker of a once guard. -/
theorem ne_alreadyIncluded {file : Path} {lines : List String} {number skip : Nat}
    (h : Yields provider directives opened (.lines file lines number skip) run tree after) :
    tree ≠ .alreadyIncluded := by
  cases h with
  | done => simp
  | inlined => simp
  | passed _ hline _ => cases hline <;> simp

end Yields

/-- A call that succeeds comes to the text of a tree. -/
theorem call_yields {provider : Provider σ} {directives : Directives} {limit : Nat} {text : String}
    {opened : OpenFiles} {state : BatchState} {source : σ} {flat : FlatText}
    (h : (provider.call directives limit text opened state source).result = .ok flat) :
    ∃ tree, (expandFile provider directives limit opened (Path.normal text)
        { source, state }).1 = .ok tree ∧ flat = tree.flatten (Path.normal text) ∧
      Yields provider directives opened (.file (Path.normal text)) { source, state } tree
        (provider.call directives limit text opened state source).run := by
  obtain ⟨tree, htree, hflat⟩ := map_eq_ok_iff.mp h
  exact ⟨tree, htree, hflat.symm, (expands_expandFile _ _ _ _ _ _).yields htree⟩

end ShaderInline
