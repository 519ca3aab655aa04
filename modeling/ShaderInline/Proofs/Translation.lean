import ShaderInline.Proofs.FailureTrail
import ShaderInline.Proofs.Batches

/-!
# Expansions in lock step

Two expansions are kept in lock step by a translation, which gives every file and every line of the
first one its counterpart in the second one. Each obligation concerns one step of a run. Where all
of them are met, the second expansion makes the translated steps of the first one, and comes to the
translated result, whether that is a tree or a failure.

An obligation may use what the first run will have come to at its end, so that it has to be met only
for what the first run does.
-/
namespace ShaderInline

variable {σ τ : Type}

/-- Whether two lines are the same to a walk: they import the same text, open the same guard, and
change the nesting of conditionals alike. -/
structure ReadsAlike (directives : Directives) (line : String) (directives' : Directives)
    (line' : String) : Prop where
  directive : ∀ importText trailing,
    ImportReading.ofLine directives line = .directive importText trailing →
      ∃ trailing', ImportReading.ofLine directives' line' = .directive importText trailing'
  absent : ImportReading.ofLine directives line = .absent →
    ImportReading.ofLine directives' line' = .absent
  malformed : ImportReading.ofLine directives line = .malformed →
    ImportReading.ofLine directives' line' = .malformed ∧ Text.trim line' = Text.trim line
  tests : testedName? line' = testedName? line
  defines : ∀ name, Text.trim line' = "#define " ++ name ↔ Text.trim line = "#define " ++ name
  depthAfter : ∀ depth, depthAfter line' depth = depthAfter line depth

theorem Text.trimChars_eq_of_trim {line line' : String} (h : trim line' = trim line) :
    trimChars line'.toList = trimChars line.toList := by
  have htoList := congrArg String.toList h
  simpa [trim] using htoList

theorem ImportReading.ofLine_of_trim {line line' : String} (h : Text.trim line' = Text.trim line)
    (directives : Directives) : ofLine directives line' = ofLine directives line := by
  rw [ofLine, Text.trimChars_eq_of_trim h, ofLine]

/-- Lines that differ in the blanks around them alone. -/
theorem ReadsAlike.of_trim {line line' : String} (h : Text.trim line' = Text.trim line)
    (directives : Directives) : ReadsAlike directives line directives line' := by
  have hreading := ImportReading.ofLine_of_trim h directives
  refine ⟨fun importText trailing hline => ⟨trailing, hreading.trans hline⟩, hreading.trans,
    fun hline => ⟨hreading.trans hline, h⟩, ?_, ?_, ?_⟩
  · rw [testedName?, Text.trimChars_eq_of_trim h, testedName?]
  · intro name
    rw [h]
  · intro depth
    simp only [ShaderInline.depthAfter, h]

/-- The counterparts of the files and lines of an expansion in another one. -/
structure Translation where
  path : Path → Path := id
  line : String → String := id
  /-- Why the counterpart of a path cannot be read. -/
  cause : Path → String → String := fun _ cause => cause
  /-- The files that are open around the other expansion alone. -/
  outer : List Path := []

namespace Translation

variable (t : Translation)

def failure : Failure → Failure
  | .unreadable path cause => .unreadable (t.path path) (t.cause path cause)
  | .circular chain => .circular (chain.map t.path)
  | .malformed file line text => .malformed (t.path file) line text
  | .imported importText importer line inner =>
    .imported importText (t.path importer) line (failure inner)

def stop : Stop → Stop
  | .failed failure => .failed (t.failure failure)
  | .tooDeep => .tooDeep

def tree : ExpansionTree → ExpansionTree
  | .done => .done
  | .alreadyIncluded => .alreadyIncluded
  | .copied line opened rest => .copied (t.line line) opened (tree rest)
  | .skipped line rest => .skipped (t.line line) (tree rest)
  | .alreadyImported importText file rest => .alreadyImported importText (t.path file) (tree rest)
  | .inlined importText file content rest =>
    .inlined importText (t.path file) (tree content) (tree rest)

def result : Except Stop ExpansionTree → Except Stop ExpansionTree
  | .ok tree => .ok (t.tree tree)
  | .error stop => .error (t.stop stop)

def task : Task → Task
  | .file path => .file (t.path path)
  | .lines file lines number skip => .lines (t.path file) (lines.map t.line) number skip

def opens (opened : OpenFiles) : OpenFiles := ⟨t.outer ++ opened.files.map t.path⟩

theorem opens_push (opened : OpenFiles) (path : Path) :
    t.opens (opened.push path) = (t.opens opened).push (t.path path) := by
  simp [opens, OpenFiles.push]

theorem size_opens (opened : OpenFiles) : (t.opens opened).size = t.outer.length + opened.size := by
  simp [opens, OpenFiles.size]

theorem result_map {result : Except Stop ExpansionTree} (node node' : ExpansionTree → ExpansionTree)
    (h : ∀ tree, t.tree (node tree) = node' (t.tree tree)) :
    t.result (result.map node) = (t.result result).map node' := by
  cases result with
  | ok tree => exact congrArg Except.ok (h tree)
  | error stop => rfl

/-- What stays as it is has itself for its counterpart. -/
theorem tree_id (tree : ExpansionTree) : ({} : Translation).tree tree = tree := by
  induction tree with
  | done | alreadyIncluded => rfl
  | copied _ _ _ ih | skipped _ _ ih | alreadyImported _ _ _ ih => simp [Translation.tree, ih]
  | inlined _ _ _ _ ihcontent ihrest => simp [Translation.tree, ihcontent, ihrest]

/-- A failure names files and causes alone. -/
theorem failure_of_id (hpath : t.path = id) (hcause : t.cause = fun _ cause => cause)
    (failure : Failure) : t.failure failure = failure := by
  induction failure with
  | unreadable | malformed => simp [Translation.failure, hpath, hcause]
  | circular chain => simp [Translation.failure, hpath]
  | imported _ _ _ _ ih => simp [Translation.failure, hpath, ih]

theorem result_id (result : Except Stop ExpansionTree) :
    ({} : Translation).result result = result := by
  cases result with
  | ok tree => simp [Translation.result, tree_id]
  | error stop => cases stop <;> simp [Translation.result, Translation.stop, failure_of_id]

theorem stop_imported (importText : String) (importer : Path) (line : Nat) (stop : Stop) :
    t.stop (stop.imported importText importer line) =
      (t.stop stop).imported importText (t.path importer) line := by
  cases stop <;> rfl

end Translation

/-- What two expansions have to do in lock step. `final` is the end of the first one, `Meets` holds
of the files that it meets, and `Runs` of two runs that have come equally far. -/
structure Translation.Simulates (t : Translation) (provider : Provider σ) (directives : Directives)
    (provider' : Provider τ) (directives' : Directives) (final : Run σ) (Meets : Path → Prop)
    (Runs : Run σ → Run τ → Prop) : Prop where
  line : ∀ line, ReadsAlike directives line directives' (t.line line)
  same : ∀ {path other}, Meets path → Meets other → (t.path path ≈ t.path other ↔ path ≈ other)
  apart : ∀ {path}, Meets path → ∀ file ∈ t.outer, ¬ file ≈ t.path path
  unreadable : ∀ {run run' path cause depth}, Runs run run' → Meets path →
    (run.asked provider path depth).Steps provider final →
    (provider.read path run.source).1 = .error cause →
      (provider'.read (t.path path) run'.source).1 = .error (t.cause path cause) ∧
      Runs (run.asked provider path depth)
        (run'.asked provider' (t.path path) (t.outer.length + depth))
  read : ∀ {run run' path content depth}, Runs run run' → Meets path →
    (run.asked provider path depth).Steps provider final →
    (provider.read path run.source).1 = .ok content →
      ∃ content', (provider'.read (t.path path) run'.source).1 = .ok content' ∧
        Text.lines content' = (Text.lines content).map t.line ∧
        (directives'.guardsOnce (Text.lines content') ∧ run'.state.isGuarded (t.path path) ↔
          directives.guardsOnce (Text.lines content) ∧ run.state.isGuarded path) ∧
        Runs ((run.asked provider path depth).noted (.skippedFile path))
          ((run'.asked provider' (t.path path) (t.outer.length + depth)).noted
            (.skippedFile (t.path path))) ∧
        Runs ((run.asked provider path depth).begun directives path content)
          ((run'.asked provider' (t.path path) (t.outer.length + depth)).begun directives'
            (t.path path) content')
  unresolved : ∀ {run run' file number line importText trailing trailing' cause}, Runs run run' →
    Meets file → (run.consulted provider file number importText trailing).Steps provider final →
    run.HasLine file number line →
    ImportReading.ofLine directives line = .directive importText trailing →
    ImportReading.ofLine directives' (t.line line) = .directive importText trailing' →
    (provider.resolve importText file run.source).1 = .error cause →
      (provider'.resolve importText (t.path file) run'.source).1 =
        .error (t.cause (Path.normal importText) cause) ∧
      t.path (Path.normal importText) = Path.normal importText ∧
      Runs (run.consulted provider file number importText trailing)
        (run'.consulted provider' (t.path file) number importText trailing')
  resolved : ∀ {run run' file number line importText trailing trailing' path}, Runs run run' →
    Meets file → (run.consulted provider file number importText trailing).Steps provider final →
    run.HasLine file number line →
    ImportReading.ofLine directives line = .directive importText trailing →
    ImportReading.ofLine directives' (t.line line) = .directive importText trailing' →
    (provider.resolve importText file run.source).1 = .ok path →
      (provider'.resolve importText (t.path file) run'.source).1 = .ok (t.path path) ∧
      Meets path ∧
      run'.state.inlined.contains (t.path path) = run.state.inlined.contains path ∧
      Runs (run.consulted provider file number importText trailing)
        (run'.consulted provider' (t.path file) number importText trailing')
  completed : ∀ {run run' importText file number path} (tree : ExpansionTree),
    (∃ opened before, Yields provider directives opened (.file path) before tree run) →
    Runs run run' → Meets path → .resolved importText file number (.ok path) ∈ final.events →
      Runs (run.completed path (tree.flatten path).text)
        (run'.completed (t.path path) ((t.tree tree).flatten (t.path path)).text)
  names : ∀ {run run' name}, Runs run run' → final.state.namedGuards.contains name →
    run'.state.namedGuards.contains name = run.state.namedGuards.contains name
  defined : ∀ {run run'} (name : String), Runs run run' →
    Runs (run.defined name) (run'.defined name)
  skippedGuard : ∀ {run run'} (name : String) (file : Path) (number : Nat), Runs run run' →
    Runs (run.noted (.skippedGuard name file number))
      (run'.noted (.skippedGuard name (t.path file) number))

namespace Translation.Simulates

variable {t : Translation} {provider : Provider σ} {directives directives' : Directives}
  {provider' : Provider τ} {final run : Run σ} {run' : Run τ} {Meets : Path → Prop}
  {Runs : Run σ → Run τ → Prop} {opened entered : OpenFiles} {path : Path}

section Lines

theorem openedGuard?_map
    (h : t.Simulates provider directives provider' directives' final Meets Runs) (line : String)
    (lines : List String) :
    openedGuard? (t.line line) (lines.map t.line) = openedGuard? line lines := by
  unfold openedGuard?
  rw [(h.line line).tests]
  cases testedName? line with
  | none => rfl
  | some name =>
    cases lines with
    | nil => rfl
    | cons next lines => simp [(h.line next).defines]

theorem blockLength_map
    (h : t.Simulates provider directives provider' directives' final Meets Runs) (depth : Nat)
    (lines : List String) : blockLength depth (lines.map t.line) = blockLength depth lines := by
  induction lines generalizing depth with
  | nil => rfl
  | cons line lines ih =>
    cases depth with
    | zero => simp [blockLength]
    | succ depth => rw [List.map_cons, blockLength, blockLength, (h.line line).depthAfter, ih]

end Lines

section Open

theorem contains_opens (h : t.Simulates provider directives provider' directives' final Meets Runs)
    (hopened : ∀ file ∈ opened.files, Meets file) (hpath : Meets path) :
    (t.opens opened).contains (t.path path) ↔ opened.contains path := by
  rw [OpenFiles.contains_iff, OpenFiles.contains_iff]
  constructor
  · rintro ⟨file, hmem, hsame⟩
    rcases List.mem_append.mp hmem with houter | hinner
    · exact absurd hsame (h.apart hpath file houter)
    · obtain ⟨inner, hmeets, rfl⟩ := List.mem_map.mp hinner
      exact ⟨inner, hmeets, (h.same (hopened inner hmeets) hpath).mp hsame⟩
  · rintro ⟨file, hmem, hsame⟩
    refine ⟨t.path file, List.mem_append_right _ (List.mem_map_of_mem hmem), ?_⟩
    exact (h.same (hopened file hmem) hpath).mpr hsame

theorem enter_of_ok (h : t.Simulates provider directives provider' directives' final Meets Runs)
    (hopened : ∀ file ∈ opened.files, Meets file) (hpath : Meets path)
    (henter : opened.enter path = .ok entered) :
    (t.opens opened).enter (t.path path) = .ok (t.opens entered) := by
  obtain ⟨hclosed, _⟩ := OpenFiles.enter_eq_ok henter
  rw [← h.contains_opens hopened hpath] at hclosed
  rw [OpenFiles.eq_push_of_enter henter, opens_push]
  exact OpenFiles.enter_of_not_contains hclosed

/-- A cycle among the counterparts is the cycle of the counterparts. -/
theorem enter_of_error (h : t.Simulates provider directives provider' directives' final Meets Runs)
    (hopened : ∀ file ∈ opened.files, Meets file) (hpath : Meets path) {chain : List Path}
    (henter : opened.enter path = .error chain) :
    (t.opens opened).enter (t.path path) = .error (chain.map t.path) := by
  obtain ⟨before, file, cycle, hfiles, hsame, hfirst, rfl⟩ := OpenFiles.enter_eq_error henter
  rw [hfiles] at hopened
  have hfile : t.path file ≈ t.path path := (h.same (hopened file (by simp)) hpath).mpr hsame
  have hopen : (t.opens opened).contains (t.path path) := by
    rw [h.contains_opens (hfiles ▸ hopened) hpath, OpenFiles.contains_iff, hfiles]
    exact ⟨file, by simp, hsame⟩
  have hbefore : ∀ other ∈ t.outer ++ before.map t.path, ¬ other ≈ t.path path := by
    intro other hmem
    rcases List.mem_append.mp hmem with houter | hinner
    · exact h.apart hpath other houter
    · obtain ⟨earlier, hearlier, rfl⟩ := List.mem_map.mp hinner
      rw [h.same (hopened earlier (by simp [hearlier])) hpath]
      exact hfirst earlier hearlier
  rw [OpenFiles.enter, if_pos hopen, opens, hfiles, List.map_append, ← List.append_assoc,
    List.dropWhile_append_of_pos (by simpa using hbefore)]
  simp [hfile]

end Open

theorem refers_iff (h : t.Simulates provider directives provider' directives' final Meets Runs)
    (hopened : ∀ file ∈ opened.files, Meets file) (hpath : Meets path)
    (hinlined : run'.state.inlined.contains (t.path path) = run.state.inlined.contains path) :
    run'.Refers (t.opens opened) (t.path path) ↔ run.Refers opened path := by
  rw [Run.Refers, Run.Refers, h.contains_opens hopened hpath, hinlined]

end Translation.Simulates

open Translation in
/-- The second expansion does what the first one does. -/
theorem Expands.translate {t : Translation} {provider : Provider σ}
    {directives directives' : Directives} {provider' : Provider τ} {final run after : Run σ}
    {run' : Run τ} {Meets : Path → Prop} {Runs : Run σ → Run τ → Prop} {limit : Nat}
    {opened : OpenFiles} {task : Task} {result : Except Stop ExpansionTree}
    (h : Expands provider directives limit opened task run result after)
    (hsim : t.Simulates provider directives provider' directives' final Meets Runs)
    (hfinal : after.Steps provider final) (hopened : ∀ file ∈ opened.files, Meets file)
    (hpath : Meets task.path) (hruns : Runs run run') :
    ∃ after', (t.task task).steps provider' directives' limit (t.opens opened) run' =
      (t.result result, after') ∧ Runs after after' := by
  induction h generalizing run' with
  | tooDeep => exact ⟨run', rfl, hruns⟩
  | circular henter =>
    exact ⟨run', expandFile_circular (hsim.enter_of_error hopened hpath henter), hruns⟩
  | unreadable henter hread =>
    obtain ⟨hread', hasked⟩ := hsim.unreadable hruns hpath hfinal hread
    rw [← size_opens] at hasked
    exact ⟨_, expandFile_unreadable (hsim.enter_of_ok hopened hpath henter) hread', hasked⟩
  | alreadyIncluded henter hread honce hknown =>
    have hasked := Relation.ReflTransGen.head (.skippedFile _ _) hfinal
    obtain ⟨content', hread', _, hguard, hskipped, _⟩ := hsim.read hruns hpath hasked hread
    obtain ⟨honce', hknown'⟩ := hguard.mpr ⟨honce, hknown⟩
    rw [← size_opens] at hskipped
    exact ⟨_, expandFile_alreadyIncluded (hsim.enter_of_ok hopened hpath henter) hread' honce'
      hknown', hskipped⟩
  | @entered path content _ entered _ _ opened run henter hread hnew hwalk ih =>
    have hmem : path ∈ (run.asked provider path entered.size).reads := by simp
    have hasked : (run.asked provider path entered.size).Steps provider final :=
      (Run.Steps.begun_of_mem_reads hmem directives content).trans (hwalk.steps.trans hfinal)
    obtain ⟨content', hread', hlines, hguard, _, hbegun⟩ := hsim.read hruns hpath hasked hread
    obtain rfl := OpenFiles.eq_push_of_enter henter
    have hinside : ∀ file ∈ (opened.push path).files, Meets file := by
      intro file hmem
      rcases List.mem_append.mp hmem with hmem | hmem
      · exact hopened file hmem
      · exact List.mem_singleton.mp hmem ▸ hpath
    obtain ⟨after', hsteps, hafter⟩ := ih hfinal hinside hpath hbegun
    rw [← size_opens] at hsteps
    have hnew' : directives'.guardsOnce (Text.lines content') →
        ¬ run'.state.isGuarded (t.path path) := by
      intro honce hknown
      obtain ⟨honce, hknown⟩ := hguard.mp ⟨honce, hknown⟩
      exact hnew honce hknown
    refine ⟨after', ?_, hafter⟩
    refine (expandFile_entered (hsim.enter_of_ok hopened hpath henter) hread' hnew').trans ?_
    rw [hlines]
    exact hsteps
  | done => exact ⟨run', rfl, hruns⟩
  | inBlock hat _ ih =>
    obtain ⟨after', hsteps, hafter⟩ := ih hfinal hopened hpath hruns
    refine ⟨after', ?_, hafter⟩
    rw [result_map t _ (.skipped (t.line _)) fun _ => rfl]
    exact (Site.walk_inBlock _ _ _ _ _ _ _).trans (RunM.map_result hsteps _)
  | malformed hat hline =>
    obtain ⟨hline', htrim⟩ := (hsim.line _).malformed hline
    refine ⟨run', ?_, hruns⟩
    rw [Translation.result, stop, Translation.failure, ← htrim]
    exact Site.walk_malformed hline'
  | unresolved hat hline hresolve =>
    obtain ⟨trailing', hline'⟩ := (hsim.line _).directive _ _ hline
    obtain ⟨hresolve', hnormal, hconsulted⟩ :=
      hsim.unresolved hruns hpath hfinal hat.hasLine hline hline' hresolve
    refine ⟨_, ?_, hconsulted⟩
    rw [Translation.result, stop, Translation.failure, Translation.failure, hnormal]
    exact Site.walk_unresolved hline' hresolve'
  | alreadyImported hat hline hresolve hknown hrest ih =>
    obtain ⟨trailing', hline'⟩ := (hsim.line _).directive _ _ hline
    obtain ⟨hresolve', hmeets, hinlined, hconsulted⟩ := hsim.resolved hruns hpath
      (hrest.steps.trans hfinal) hat.hasLine hline hline' hresolve
    have hknown' := (hsim.refers_iff hopened hmeets hinlined).mpr hknown
    obtain ⟨after', hsteps, hafter⟩ := ih hfinal hopened hpath hconsulted
    refine ⟨after', ?_, hafter⟩
    rw [result_map t _ (.alreadyImported _ (t.path _)) fun _ => rfl]
    exact (Site.walk_alreadyImported hline' hresolve' hknown').trans (RunM.map_result hsteps _)
  | failedImport hat hline hresolve hfresh hchild ih =>
    obtain ⟨trailing', hline'⟩ := (hsim.line _).directive _ _ hline
    obtain ⟨hresolve', hmeets, hinlined, hconsulted⟩ := hsim.resolved hruns hpath
      (hchild.steps.trans hfinal) hat.hasLine hline hline' hresolve
    have hfresh' := (hsim.refers_iff hopened hmeets hinlined).not.mpr hfresh
    obtain ⟨after', hsteps, hafter⟩ := ih hfinal hopened hmeets hconsulted
    refine ⟨after', ?_, hafter⟩
    rw [Translation.result, stop_imported]
    exact Site.walk_failedImport hline' hresolve' hfresh' hsteps
  | inlined hat hline hresolve hfresh hchild hrest ihchild ihrest =>
    obtain ⟨trailing', hline'⟩ := (hsim.line _).directive _ _ hline
    have hmiddle := Relation.ReflTransGen.head (.completed _ _ _) (hrest.steps.trans hfinal)
    have hconsulted : Run.Steps provider _ final := hchild.steps.trans hmiddle
    obtain ⟨hresolve', hmeets, hinlined, hruns'⟩ := hsim.resolved hruns hpath hconsulted
      hat.hasLine hline hline' hresolve
    have hfresh' := (hsim.refers_iff hopened hmeets hinlined).not.mpr hfresh
    obtain ⟨middle', hfile, hdone⟩ := ihchild hmiddle hopened hmeets hruns'
    have hresolved := hconsulted.events_prefix.subset (Run.resolved_mem_consulted hresolve _ _)
    obtain ⟨after', hsteps, hafter⟩ :=
      ihrest hfinal hopened hpath (hsim.completed _ ⟨_, _, hchild.yields rfl⟩ hdone hmeets hresolved)
    refine ⟨after', ?_, hafter⟩
    rw [result_map t _ (.inlined _ (t.path _) (t.tree _)) fun _ => rfl]
    exact (Site.walk_inlined hline' hresolve' hfresh' hfile).trans (RunM.map_result hsteps _)
  | plain hat hline hguard _ ih =>
    obtain ⟨after', hsteps, hafter⟩ := ih hfinal hopened hpath hruns
    have hguard' := (hsim.openedGuard?_map _ _).trans hguard
    refine ⟨after', ?_, hafter⟩
    rw [result_map t _ (.copied (t.line _) none) fun _ => rfl]
    exact (Site.walk_plain ((hsim.line _).absent hline) hguard').trans (RunM.map_result hsteps _)
  | @opening _ _ name _ _ _ _ _ _ run hat hline hguard hfresh hrest ih =>
    have hdefined : (run.defined name).state.namedGuards.contains name := by simp [Run.defined]
    have hfinally := (hrest.steps.trans hfinal).extends.namedGuards name hdefined
    have hguard' := (hsim.openedGuard?_map _ _).trans hguard
    have hfresh' := (hsim.names hruns hfinally).trans (by simpa using hfresh)
    obtain ⟨after', hsteps, hafter⟩ := ih hfinal hopened hpath (hsim.defined _ hruns)
    refine ⟨after', ?_, hafter⟩
    rw [result_map t _ (.copied (t.line _) (some _)) fun _ => rfl]
    exact (Site.walk_opening ((hsim.line _).absent hline) hguard' (by simp [hfresh'])).trans
      (RunM.map_result hsteps _)
  | skippedBlock hat hline hguard hknown hrest ih =>
    have hfinally := (hrest.steps.trans hfinal).extends.namedGuards _ hknown
    have hguard' := (hsim.openedGuard?_map _ _).trans hguard
    have hknown' := (hsim.names hruns hfinally).trans hknown
    obtain ⟨after', hsteps, hafter⟩ := ih hfinal hopened hpath (hsim.skippedGuard _ _ _ hruns)
    refine ⟨after', ?_, hafter⟩
    rw [← hsim.blockLength_map] at hsteps
    rw [result_map t _ (.skipped (t.line _)) fun _ => rfl]
    exact (Site.walk_skippedBlock ((hsim.line _).absent hline) hguard' hknown').trans
      (RunM.map_result hsteps _)

/-- Whether the lines, the import texts and the files in a tree are of certain kinds. -/
def ExpansionTree.Holds (Line Text : String → Prop) (File : Path → Prop) : ExpansionTree → Prop
  | done | alreadyIncluded => True
  | copied line _ rest | skipped line rest => Line line ∧ rest.Holds Line Text File
  | alreadyImported importText file rest => Text importText ∧ File file ∧ rest.Holds Line Text File
  | inlined importText file content rest =>
    Text importText ∧ File file ∧ content.Holds Line Text File ∧ rest.Holds Line Text File

/-- A tree is made of what was read, if import lines lead from files of a kind to such files. -/
theorem Yields.holds {provider : Provider σ} {directives : Directives} {opened : OpenFiles}
    {task : Task} {run after final : Run σ} {tree : ExpansionTree} {Line Text : String → Prop}
    {File : Path → Prop} (h : Yields provider directives opened task run tree after)
    (hfinal : after.events <+: final.events)
    (hlines : ∀ file number line, final.HasLine file number line → Line line)
    (htexts : ∀ line importText trailing, Line line →
      ImportReading.ofLine directives line = .directive importText trailing → Text importText)
    (hfiles : ∀ importText importer number path,
      .resolved importText importer number (.ok path) ∈ final.events →
        Text importText → File importer → File path)
    (hpath : File task.path) : tree.Holds Line Text File := by
  induction h with
  | alreadyIncluded => trivial
  | entered _ _ _ _ ih => exact ih hfinal hpath
  | done => trivial
  | passed hat hline hrest ih =>
    have hmiddle := hline.steps.events_prefix.trans (hrest.events_prefix.trans hfinal)
    have hholds := hlines _ _ _ (hat.hasLine.mono hmiddle.subset)
    have hlater := ih hfinal hpath
    cases hline with
    | alreadyImported hreading hresolve _ =>
      have htext := htexts _ _ _ hholds hreading
      have hevent := (hrest.events_prefix.trans hfinal).subset
        (Run.resolved_mem_consulted hresolve _ _)
      exact ⟨htext, hfiles _ _ _ _ hevent htext hpath, hlater⟩
    | inBlock | plain | opening | skippedBlock => exact ⟨hholds, hlater⟩
  | inlined hat hreading hresolve _ hchild hrest ihchild ihrest =>
    have hinside := hrest.events_prefix.trans hfinal
    have hconsulted := hchild.events_prefix.trans hinside
    have hmiddle := (Run.events_prefix_consulted _ _ _ _ _ _).trans hconsulted
    have htext := htexts _ _ _ (hlines _ _ _ (hat.hasLine.mono hmiddle.subset)) hreading
    have hevent := hconsulted.subset (Run.resolved_mem_consulted hresolve _ _)
    have hfile := hfiles _ _ _ _ hevent htext hpath
    exact ⟨htext, hfile, ihchild hinside hfile, ihrest hfinal hpath⟩

/-- A call that is simulated by another one: what the other one comes to is the translation of what
the first one does. -/
theorem call_translate {t : Translation} {provider : Provider σ}
    {directives directives' : Directives} {provider' : Provider τ} {limit : Nat}
    {text text' : String} {opened : OpenFiles} {state state' : BatchState} {source : σ}
    {source' : τ} {Meets : Path → Prop} {Runs : Run σ → Run τ → Prop}
    (hsim : t.Simulates provider directives provider' directives'
      (provider.call directives limit text opened state source).run Meets Runs)
    (htext : Path.normal text' = t.path (Path.normal text))
    (hopened : ∀ file ∈ opened.files, Meets file) (hpath : Meets (Path.normal text))
    (hruns : Runs { source, state } { source := source', state := state' }) :
    let call := provider.call directives limit text opened state source
    let call' := provider'.call directives' limit text' (t.opens opened) state' source'
    ∃ ended, call.result = ended.map (·.flatten (Path.normal text)) ∧
      call'.result = (t.result ended).map (·.flatten (Path.normal text')) ∧
      (∀ tree, ended = .ok tree → Yields provider directives opened (.file (Path.normal text))
        { source, state } tree call.run) ∧
      Runs call.run call'.run := by
  intro call call'
  have hexpands := expands_expandFile provider directives limit opened (Path.normal text)
    { source, state }
  obtain ⟨after', hsteps, hafter⟩ := hexpands.translate hsim .refl hopened hpath hruns
  have hpaths := congrArg (fun path => expandFile provider' directives' limit (t.opens opened) path
    { source := source', state := state' }) htext
  have hended := hpaths.trans hsteps
  refine ⟨_, rfl, ?_, fun tree htree => hexpands.yields htree, ?_⟩
  · exact congrArg (fun ended => ended.1.map (·.flatten (Path.normal text'))) hended
  · have hrun : call'.run = after' := congrArg Prod.snd hended
    rw [hrun]
    exact hafter

end ShaderInline
