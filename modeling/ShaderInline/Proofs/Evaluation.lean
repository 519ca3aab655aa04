import ShaderInline.Proofs.Rules

/-!
# Rules and evaluation

Every run of `expandFile` follows the rules of expansion, and what the rules derive is what
`expandFile` does. So the rules say all that an expansion can come to, and a higher limit on the
nesting of files changes nothing for a run that does not meet it.
-/
namespace ShaderInline

variable {σ : Type}

namespace RunM

variable {α β : Type}

theorem map_apply (step : RunM σ α) (f : α → β) (run : Run σ) :
    (step >>= fun a => pure (f a)) run = ((step run).1.map f, (step run).2) := by
  rw [bind_apply]
  rcases step run with ⟨_ | _, _⟩ <;> rfl

theorem map_result {step : RunM σ α} {run after : Run σ} {result : Except Stop α}
    (h : step run = (result, after)) (f : α → β) :
    ((step run).1.map f, (step run).2) = (result.map f, after) := by
  rw [h]

end RunM

namespace Site

variable {site : Site σ} {child : Path → RunM σ ExpansionTree} {run : Run σ} {line : Nat}
  {importText : String} {trailing : Option String} {path : Path}

theorem remark_apply (site : Site σ) (line : Nat) (importText : String)
    (trailing : Option String) (run : Run σ) :
    site.remark line importText trailing run =
      (.ok (), run.remarkedOn site.file line importText trailing) := by
  cases trailing <;> rfl

theorem isComplete_apply (site : Site σ) (path : Path) (run : Run σ) :
    site.isComplete path run =
      (.ok (!site.opened.contains path && run.state.inlined.contains path), run) := rfl

theorem importFile_of_error {cause : String}
    (h : (site.provider.resolve importText site.file run.source).1 = .error cause) :
    site.importFile child line importText trailing run =
      (.error (.failed
        (.imported importText site.file line (.unreadable (Path.normal importText) cause))),
        run.consulted site.provider site.file line importText trailing) := by
  have hsource : (site.provider.resolve importText site.file
      (run.remarkedOn site.file line importText trailing).source).1 = .error cause := by
    simpa using h
  have hresolve := RunM.resolve_of_error hsource line
  unfold importFile
  rw [RunM.bind_apply, remark_apply]
  simp only [RunM.bind_apply, hresolve]
  rfl

/-- An import that is looked up is complete or is inlined. -/
theorem importFile_of_ok
    (h : (site.provider.resolve importText site.file run.source).1 = .ok path) :
    site.importFile child line importText trailing run =
      (if !site.opened.contains path && run.state.inlined.contains path then return (path, none)
        else return (path, some (← site.inlineFile child line importText path)) :
        RunM σ (Path × Option ExpansionTree))
        (run.consulted site.provider site.file line importText trailing) := by
  have hsource : (site.provider.resolve importText site.file
      (run.remarkedOn site.file line importText trailing).source).1 = .ok path := by
    simpa using h
  have hresolve := RunM.resolve_of_ok hsource line
  have hinlined := run.inlined_consulted site.provider site.file line importText trailing
  unfold importFile
  rw [RunM.bind_apply, remark_apply]
  simp only [RunM.bind_apply, hresolve, isComplete_apply]
  rw [← hinlined]
  rfl

theorem importFile_of_refers
    (h : (site.provider.resolve importText site.file run.source).1 = .ok path)
    (hknown : run.Refers site.opened path) :
    site.importFile child line importText trailing run =
      (.ok (path, none), run.consulted site.provider site.file line importText trailing) := by
  have hcomplete : (!site.opened.contains path && run.state.inlined.contains path) = true := by
    simpa [Run.Refers] using hknown
  rw [importFile_of_ok h, if_pos hcomplete]
  rfl

theorem importFile_of_not_refers
    (h : (site.provider.resolve importText site.file run.source).1 = .ok path)
    (hfresh : ¬ run.Refers site.opened path) :
    site.importFile child line importText trailing run =
      match child path (run.consulted site.provider site.file line importText trailing) with
      | (.ok tree, middle) =>
        (.ok (path, some tree), middle.completed path (tree.flatten path).text)
      | (.error stop, after) => (.error (stop.imported importText site.file line), after) := by
  have hcomplete : ¬ (!site.opened.contains path && run.state.inlined.contains path) = true := by
    simpa [Run.Refers] using hfresh
  rw [importFile_of_ok h, if_neg hcomplete, RunM.map_apply]
  unfold inlineFile
  rw [RunM.bind_apply, RunM.within_apply]
  rcases child path _ with ⟨_ | _, _⟩ <;> rfl

variable {source : String} {lines : List String} {number skip : Nat}

theorem walk_inBlock (site : Site σ) (child : Path → RunM σ ExpansionTree) (source : String)
    (lines : List String) (number skip : Nat) (run : Run σ) :
    site.walk child (source :: lines) number (skip + 1) run =
      ((site.walk child lines (number + 1) skip run).1.map (.skipped source),
        (site.walk child lines (number + 1) skip run).2) :=
  RunM.map_apply _ _ _

theorem walk_malformed (hline : ImportReading.ofLine site.directives source = .malformed) :
    site.walk child (source :: lines) number 0 run =
      (.error (.failed (.malformed site.file number (Text.trim source))), run) := by
  simp only [walk, hline]
  rfl

theorem walk_unresolved {cause : String}
    (hline : ImportReading.ofLine site.directives source = .directive importText trailing)
    (hresolve : (site.provider.resolve importText site.file run.source).1 = .error cause) :
    site.walk child (source :: lines) number 0 run =
      (.error (.failed
        (.imported importText site.file number (.unreadable (Path.normal importText) cause))),
        run.consulted site.provider site.file number importText trailing) := by
  simp only [walk, hline]
  rw [RunM.bind_apply, importFile_of_error hresolve]

theorem walk_alreadyImported
    (hline : ImportReading.ofLine site.directives source = .directive importText trailing)
    (hresolve : (site.provider.resolve importText site.file run.source).1 = .ok path)
    (hknown : run.Refers site.opened path) :
    site.walk child (source :: lines) number 0 run =
      ((site.walk child lines (number + 1) 0
          (run.consulted site.provider site.file number importText trailing)).1.map
            (.alreadyImported importText path),
        (site.walk child lines (number + 1) 0
          (run.consulted site.provider site.file number importText trailing)).2) := by
  simp only [walk, hline]
  rw [RunM.bind_apply, importFile_of_refers hresolve hknown]
  exact RunM.map_apply _ _ _

theorem walk_failedImport {after : Run σ} {stop : Stop}
    (hline : ImportReading.ofLine site.directives source = .directive importText trailing)
    (hresolve : (site.provider.resolve importText site.file run.source).1 = .ok path)
    (hfresh : ¬ run.Refers site.opened path)
    (hchild : child path (run.consulted site.provider site.file number importText trailing) =
      (.error stop, after)) :
    site.walk child (source :: lines) number 0 run =
      (.error (stop.imported importText site.file number), after) := by
  simp only [walk, hline]
  rw [RunM.bind_apply, importFile_of_not_refers hresolve hfresh, hchild]

theorem walk_inlined {middle : Run σ} {tree : ExpansionTree}
    (hline : ImportReading.ofLine site.directives source = .directive importText trailing)
    (hresolve : (site.provider.resolve importText site.file run.source).1 = .ok path)
    (hfresh : ¬ run.Refers site.opened path)
    (hchild : child path (run.consulted site.provider site.file number importText trailing) =
      (.ok tree, middle)) :
    site.walk child (source :: lines) number 0 run =
      ((site.walk child lines (number + 1) 0
          (middle.completed path (tree.flatten path).text)).1.map (.inlined importText path tree),
        (site.walk child lines (number + 1) 0
          (middle.completed path (tree.flatten path).text)).2) := by
  simp only [walk, hline]
  rw [RunM.bind_apply, importFile_of_not_refers hresolve hfresh, hchild]
  exact RunM.map_apply _ _ _

theorem walk_plain (hline : ImportReading.ofLine site.directives source = .absent)
    (hguard : openedGuard? source lines = none) :
    site.walk child (source :: lines) number 0 run =
      ((site.walk child lines (number + 1) 0 run).1.map (.copied source none),
        (site.walk child lines (number + 1) 0 run).2) := by
  simp only [walk, hline, hguard]
  exact RunM.map_apply _ _ _

theorem walk_opening {name : String}
    (hline : ImportReading.ofLine site.directives source = .absent)
    (hguard : openedGuard? source lines = some name)
    (hfresh : ¬ run.state.namedGuards.contains name) :
    site.walk child (source :: lines) number 0 run =
      ((site.walk child lines (number + 1) 0 (run.defined name)).1.map
          (.copied source (some name)),
        (site.walk child lines (number + 1) 0 (run.defined name)).2) := by
  simp only [walk, hline, hguard]
  rw [RunM.bind_apply, RunM.define_apply]
  dsimp only
  rw [if_pos (by simp [hfresh])]
  exact RunM.map_apply _ _ _

theorem walk_skippedBlock {name : String}
    (hline : ImportReading.ofLine site.directives source = .absent)
    (hguard : openedGuard? source lines = some name)
    (hknown : run.state.namedGuards.contains name) :
    site.walk child (source :: lines) number 0 run =
      ((site.walk child lines (number + 1) (blockLength 1 lines)
          (run.noted (.skippedGuard name site.file number))).1.map (.skipped source),
        (site.walk child lines (number + 1) (blockLength 1 lines)
          (run.noted (.skippedGuard name site.file number))).2) := by
  simp only [walk, hline, hguard]
  rw [RunM.bind_apply, RunM.define_apply]
  dsimp only
  rw [if_neg (by simp [hknown]), Run.defined_of_contains hknown, RunM.bind_apply,
    RunM.note_apply]
  exact RunM.map_apply _ _ _

/-- A walk follows the rules if the expansion of every file it imports does. -/
theorem expands_walk (site : Site σ) {limit : Nat}
    (hchild : ∀ path run, Expands site.provider site.directives limit site.opened (.file path) run
      (child path run).1 (child path run).2)
    (lines : List String) (number skip : Nat) (run : Run σ)
    (hat : run.Walks site.file number lines) :
    Expands site.provider site.directives limit site.opened (.lines site.file lines number skip)
      run (site.walk child lines number skip run).1 (site.walk child lines number skip run).2 := by
  induction lines generalizing number skip run with
  | nil => exact .done hat
  | cons source lines ih =>
    cases skip with
    | succ skip =>
      rw [walk_inBlock]
      exact .inBlock hat (ih _ _ _ hat.tail)
    | zero =>
      cases hline : ImportReading.ofLine site.directives source with
      | malformed =>
        rw [walk_malformed hline]
        exact .malformed hat hline
      | directive importText trailing =>
        have hconsulted := run.events_prefix_consulted site.provider site.file number
          importText trailing
        cases hresolve : (site.provider.resolve importText site.file run.source).1 with
        | error cause =>
          rw [walk_unresolved hline hresolve]
          exact .unresolved hat hline hresolve
        | ok path =>
          by_cases hrefers : run.Refers site.opened path
          · rw [walk_alreadyImported hline hresolve hrefers]
            exact .alreadyImported hat hline hresolve hrefers
              (ih _ _ _ (hat.tail.mono hconsulted.subset))
          · have hpath := hchild path
              (run.consulted site.provider site.file number importText trailing)
            rcases hrun : child path
              (run.consulted site.provider site.file number importText trailing) with
              ⟨stop | tree, middle⟩
            · rw [walk_failedImport hline hresolve hrefers hrun]
              rw [hrun] at hpath
              exact .failedImport hat hline hresolve hrefers hpath
            · rw [walk_inlined hline hresolve hrefers hrun]
              rw [hrun] at hpath
              have hgrown := hconsulted.trans hpath.events_prefix
              exact .inlined hat hline hresolve hrefers hpath
                (ih _ _ _ (hat.tail.mono hgrown.subset))
      | absent =>
        cases hguard : openedGuard? source lines with
        | none =>
          rw [walk_plain hline hguard]
          exact .plain hat hline hguard (ih _ _ _ hat.tail)
        | some name =>
          by_cases hknown : run.state.namedGuards.contains name
          · rw [walk_skippedBlock hline hguard hknown]
            refine .skippedBlock hat hline hguard hknown (ih _ _ _ (hat.tail.mono ?_))
            simp
          · rw [walk_opening hline hguard hknown]
            exact .opening hat hline hguard hknown
              (ih _ _ _ (hat.tail.mono (List.Subset.refl _)))

end Site

section File

variable {provider : Provider σ} {directives : Directives} {limit : Nat}
  {opened entered : OpenFiles} {path : Path} {run : Run σ} {content : String}

theorem expandFile_circular {chain : List Path} (henter : opened.enter path = .error chain) :
    expandFile provider directives (limit + 1) opened path run =
      (.error (.failed (.circular chain)), run) := by
  simp only [expandFile, henter]
  rfl

theorem expandFile_unreadable {cause : String} (henter : opened.enter path = .ok entered)
    (hread : (provider.read path run.source).1 = .error cause) :
    expandFile provider directives (limit + 1) opened path run =
      (.error (.failed (.unreadable path cause)), run.asked provider path entered.size) := by
  simp only [expandFile, henter]
  rw [RunM.bind_apply, RunM.read_of_error hread]

theorem expandFile_alreadyIncluded (henter : opened.enter path = .ok entered)
    (hread : (provider.read path run.source).1 = .ok content)
    (honce : directives.guardsOnce (Text.lines content)) (hknown : run.state.isGuarded path) :
    expandFile provider directives (limit + 1) opened path run =
      (.ok .alreadyIncluded,
        (run.asked provider path entered.size).noted (.skippedFile path)) := by
  have hasked : (run.asked provider path entered.size).state.isGuarded path := hknown
  simp only [expandFile, henter]
  rw [RunM.bind_apply, RunM.read_of_ok hread]
  dsimp only
  rw [if_pos honce, RunM.bind_apply, RunM.enterOnce_apply]
  dsimp only
  rw [if_neg (by simp [hasked]), Run.guardedOnce_of_isGuarded hasked]
  rfl

theorem expandFile_entered (henter : opened.enter path = .ok entered)
    (hread : (provider.read path run.source).1 = .ok content)
    (hnew : directives.guardsOnce (Text.lines content) → ¬ run.state.isGuarded path) :
    expandFile provider directives (limit + 1) opened path run =
      Site.walk ⟨provider, directives, entered, path⟩
        (expandFile provider directives limit entered) (Text.lines content) 1 0
        ((run.asked provider path entered.size).begun directives path content) := by
  simp only [expandFile, henter]
  rw [RunM.bind_apply, RunM.read_of_ok hread]
  dsimp only
  by_cases honce : directives.guardsOnce (Text.lines content)
  · have hasked : ¬ (run.asked provider path entered.size).state.isGuarded path := hnew honce
    rw [if_pos honce, RunM.bind_apply, RunM.enterOnce_apply]
    dsimp only
    rw [if_pos (by simp [hasked]), Run.begun, if_pos honce]
  · rw [if_neg honce, Run.begun, if_neg honce]

end File

/-- Every run of `expandFile` follows the rules. -/
theorem expands_expandFile (provider : Provider σ) (directives : Directives) (limit : Nat)
    (opened : OpenFiles) (path : Path) (run : Run σ) :
    Expands provider directives limit opened (.file path) run
      (expandFile provider directives limit opened path run).1
      (expandFile provider directives limit opened path run).2 := by
  induction limit generalizing opened path run with
  | zero => exact .tooDeep
  | succ limit ih =>
    cases henter : opened.enter path with
    | error chain =>
      rw [expandFile_circular henter]
      exact .circular henter
    | ok entered =>
      cases hread : (provider.read path run.source).1 with
      | error cause =>
        rw [expandFile_unreadable henter hread]
        exact .unreadable henter hread
      | ok content =>
        by_cases hknown : directives.guardsOnce (Text.lines content) ∧
          run.state.isGuarded path
        · rw [expandFile_alreadyIncluded henter hread hknown.1 hknown.2]
          exact .alreadyIncluded henter hread hknown.1 hknown.2
        · have hnew : directives.guardsOnce (Text.lines content) →
              ¬ run.state.isGuarded path := fun honce hguard => hknown ⟨honce, hguard⟩
          rw [expandFile_entered henter hread hnew]
          refine .entered henter hread hnew ?_
          refine Site.expands_walk ⟨provider, directives, entered, path⟩
            (fun child run => ih entered child run) _ _ _ _ ?_
          refine ⟨content, [], ⟨entered.size, ?_⟩, rfl, rfl⟩
          simp [hread]

/-- The steps of a run that a task stands for. -/
def Task.steps (provider : Provider σ) (directives : Directives) (limit : Nat)
    (opened : OpenFiles) : Task → RunM σ ExpansionTree
  | .file path => expandFile provider directives limit opened path
  | .lines path rest number skip =>
    Site.walk ⟨provider, directives, opened, path⟩
      (expandFile provider directives limit opened) rest number skip

namespace Expands

variable {provider : Provider σ} {directives : Directives} {limit : Nat} {opened : OpenFiles}
  {task : Task} {run after : Run σ} {result : Except Stop ExpansionTree}

/-- What the rules derive is what the steps do. -/
theorem steps_eq (h : Expands provider directives limit opened task run result after) :
    task.steps provider directives limit opened run = (result, after) := by
  induction h with
  | tooDeep | done => rfl
  | circular henter => exact expandFile_circular henter
  | unreadable henter hread => exact expandFile_unreadable henter hread
  | alreadyIncluded henter hread honce hknown =>
    exact expandFile_alreadyIncluded henter hread honce hknown
  | entered henter hread hnew _ ih => exact (expandFile_entered henter hread hnew).trans ih
  | inBlock _ _ ih => exact (Site.walk_inBlock _ _ _ _ _ _ _).trans (RunM.map_result ih _)
  | malformed _ hline => exact Site.walk_malformed hline
  | unresolved _ hline hresolve => exact Site.walk_unresolved hline hresolve
  | alreadyImported _ hline hresolve hknown _ ih =>
    exact (Site.walk_alreadyImported hline hresolve hknown).trans (RunM.map_result ih _)
  | failedImport _ hline hresolve hfresh _ ih =>
    exact Site.walk_failedImport hline hresolve hfresh ih
  | inlined _ hline hresolve hfresh _ _ ihchild ihrest =>
    exact (Site.walk_inlined hline hresolve hfresh ihchild).trans (RunM.map_result ihrest _)
  | plain _ hline hguard _ ih => exact (Site.walk_plain hline hguard).trans (RunM.map_result ih _)
  | opening _ hline hguard hfresh _ ih =>
    exact (Site.walk_opening hline hguard hfresh).trans (RunM.map_result ih _)
  | skippedBlock _ hline hguard hknown _ ih =>
    exact (Site.walk_skippedBlock hline hguard hknown).trans (RunM.map_result ih _)

/-- A run that was not stopped for its depth is the same under a larger limit. -/
theorem limit_succ (h : Expands provider directives limit opened task run result after)
    (hshallow : result ≠ .error .tooDeep) :
    Expands provider directives (limit + 1) opened task run result after := by
  induction h with
  | tooDeep => exact absurd rfl hshallow
  | circular henter => exact .circular henter
  | unreadable henter hread => exact .unreadable henter hread
  | alreadyIncluded henter hread honce hknown =>
    exact .alreadyIncluded henter hread honce hknown
  | entered henter hread hnew _ ih => exact .entered henter hread hnew (ih hshallow)
  | done hat => exact .done hat
  | inBlock hat _ ih => exact .inBlock hat (ih (by rintro rfl; exact hshallow rfl))
  | malformed hat hline => exact .malformed hat hline
  | unresolved hat hline hresolve => exact .unresolved hat hline hresolve
  | alreadyImported hat hline hresolve hknown _ ih =>
    exact .alreadyImported hat hline hresolve hknown (ih (by rintro rfl; exact hshallow rfl))
  | failedImport hat hline hresolve hfresh _ ih =>
    refine .failedImport hat hline hresolve hfresh (ih ?_)
    rintro hstop
    cases hstop
    exact hshallow rfl
  | inlined hat hline hresolve hfresh _ _ ihchild ihrest =>
    exact .inlined hat hline hresolve hfresh (ihchild (by simp))
      (ihrest (by rintro rfl; exact hshallow rfl))
  | plain hat hline hguard _ ih =>
    exact .plain hat hline hguard (ih (by rintro rfl; exact hshallow rfl))
  | opening hat hline hguard hfresh _ ih =>
    exact .opening hat hline hguard hfresh (ih (by rintro rfl; exact hshallow rfl))
  | skippedBlock hat hline hguard hknown _ ih =>
    exact .skippedBlock hat hline hguard hknown (ih (by rintro rfl; exact hshallow rfl))

theorem limit_mono {larger : Nat} (hle : limit ≤ larger)
    (h : Expands provider directives limit opened task run result after)
    (hshallow : result ≠ .error .tooDeep) :
    Expands provider directives larger opened task run result after := by
  induction hle with
  | refl => exact h
  | step _ ih => exact ih.limit_succ hshallow

end Expands

end ShaderInline
