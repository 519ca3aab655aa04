import ShaderInline.Proofs.DepthFirst
import ShaderInline.Proofs.ImportGraph
import ShaderInline.Proofs.ReadOnce

/-!
# The traversal of the import graph

A call that succeeds has searched the graph of imports depth first. Each file is read when the
search enters it and recorded when the search leaves it, and whatever it imports was recorded
before it. So the record leaves no room for a cycle.

No file here opens a named guard, for the lines that such a guard passes over are not looked at, and
what they import belongs to the graph all the same.
-/
namespace ShaderInline

variable {σ : Type}

namespace Run

/-- The files that were inlined, as paths are compared. -/
def recorded (run : Run σ) : List (List Component) :=
  run.state.inlined.files.map Path.components

variable {run after : Run σ}

theorem recorded_completed {path : Path} (hnew : ¬ run.state.inlined.contains path)
    (expanded : String) :
    (run.completed path expanded).recorded = run.recorded ++ [path.components] := by
  simp [recorded, completed, InlinedFiles.files_add_of_not_contains hnew]

@[simp] theorem recorded_asked (run : Run σ) (provider : Provider σ) (path : Path) (depth : Nat) :
    (run.asked provider path depth).recorded = run.recorded := rfl

@[simp] theorem recorded_begun (run : Run σ) (directives : Directives) (path : Path)
    (content : String) : (run.begun directives path content).recorded = run.recorded := by
  simp [recorded]

@[simp] theorem recorded_consulted (run : Run σ) (provider : Provider σ) (file : Path)
    (line : Nat) (importText : String) (trailing : Option String) :
    (run.consulted provider file line importText trailing).recorded = run.recorded := by
  simp [recorded]

end Run

namespace SourceFiles

variable {files : SourceFiles} {directives : Directives}

theorem imports_eq_targets {file : List Component} {content : String}
    (h : files.content? file = some content) :
    files.imports directives file = files.targets directives file (Text.lines content) := by
  rw [imports, h, Option.getD_some]

theorem targets_cons_of_directive {file imported : List Component} {line importText : String}
    {trailing : Option String}
    (hline : ImportReading.ofLine directives line = .directive importText trailing)
    (htarget : files.target? importText file = some imported) (lines : List String) :
    files.targets directives file (line :: lines) =
      imported :: files.targets directives file lines := by
  simp [targets, ImportReading.importText?_of_directive hline, htarget]

theorem targets_cons_of_absent {line : String}
    (hline : ImportReading.ofLine directives line = .absent) (file : List Component)
    (lines : List String) :
    files.targets directives file (line :: lines) = files.targets directives file lines := by
  simp [targets, ImportReading.importText?, hline]

theorem AreSound.cons {file : List Component} {line : String} {lines : List String}
    (h : files.AreSound directives file lines)
    (hformed : ImportReading.ofLine directives line ≠ .malformed)
    (hresolved : ∀ importText ∈ ImportReading.importText? directives line,
      (files.target? importText file).isSome) :
    files.AreSound directives file (line :: lines) := by
  intro other hmem
  rcases List.mem_cons.mp hmem with rfl | hmem
  · exact ⟨hformed, hresolved⟩
  · exact h other hmem

theorem AreSound.cons_directive {file imported : List Component} {line importText : String}
    {lines : List String} {trailing : Option String} (h : files.AreSound directives file lines)
    (hline : ImportReading.ofLine directives line = .directive importText trailing)
    (htarget : files.target? importText file = some imported) :
    files.AreSound directives file (line :: lines) := by
  apply h.cons
  · simp [hline]
  · simp [ImportReading.importText?_of_directive hline, htarget]

theorem AreSound.cons_absent {file : List Component} {line : String} {lines : List String}
    (h : files.AreSound directives file lines)
    (hline : ImportReading.ofLine directives line = .absent) :
    files.AreSound directives file (line :: lines) := by
  apply h.cons
  · simp [hline]
  · simp [ImportReading.importText?, hline]

end SourceFiles

namespace Task

/-- What a task is to search from. -/
def todo (files : SourceFiles) (directives : Directives) : Task → List (List Component)
  | .file path => [path.components]
  | .lines importer rest _ _ => files.targets directives importer.components rest

/-- The files that are left when a task has ended, but not recorded yet. -/
def pending : Task → List (List Component)
  | .file path => [path.components]
  | .lines _ _ _ _ => []

/-- What is recorded when a task has ended. -/
def dependencies (files : SourceFiles) (directives : Directives) : Task → List (List Component)
  | .file path => files.imports directives path.components
  | .lines importer rest _ _ => files.targets directives importer.components rest

/-- Whether the lines of a task are sound. -/
def HasSoundLines (files : SourceFiles) (directives : Directives) : Task → Prop
  | .file _ => True
  | .lines importer rest _ _ => files.AreSound directives importer.components rest

/-- Whether a task looks at all of its lines. -/
def IsWhole : Task → Prop
  | .file _ => True
  | .lines _ _ _ skip => skip = 0

end Task

/-- What holds between the steps of a call that began from a fresh state. -/
structure Run.Consistent (run : Run σ) (provider : Provider σ) (start : σ) (files : SourceFiles)
    (directives : Directives) (opened : OpenFiles) : Prop where
  answered : run.AnsweredBy provider start
  accounts : run.Accounts opened
  nodup : run.identities.Nodup
  guardsRead : run.GuardsRead
  coherent : run.state.inlined.IsCoherent
  recorded : run.recorded ⊆ run.identities
  sorted : SuccessorsFirst (files.imports directives) run.recorded

/-- The task has searched the graph, entered `pre`, and recorded `left` on leaving. -/
structure Traversed (files : SourceFiles) (directives : Directives) (task : Task)
    (run after : Run σ) (pre left : List (List Component)) : Prop where
  order : DepthFirst (files.imports directives) run.identities (task.todo files directives) pre
    (left ++ task.pending)
  reads : after.identities = run.identities ++ pre
  record : after.recorded = run.recorded ++ left
  sorted : SuccessorsFirst (files.imports directives) after.recorded
  dependencies : task.dependencies files directives ⊆ after.recorded
  sound : ∀ file ∈ pre, files.IsSound directives file
  lines : task.HasSoundLines files directives

section Steps

variable {provider : Provider σ} {start : σ} {files : SourceFiles} {directives : Directives}
  {opened : OpenFiles} {run middle after : Run σ} {path file : Path}
  {pre left : List (List Component)}

theorem Run.Consistent.consulted (h : run.Consistent provider start files directives opened)
    (importer : Path) (line : Nat) (importText : String) (trailing : Option String) :
    (run.consulted provider importer line importText trailing).Consistent provider start files
      directives opened where
  answered := (Run.Steps.consulted _ _ _ _ _ _).answeredBy h.answered
  accounts := by simpa [Run.Accounts] using h.accounts
  nodup := by simpa using h.nodup
  guardsRead := (Run.Steps.consulted _ _ _ _ _ _).guardsRead h.guardsRead
  coherent := (Run.Steps.consulted _ _ _ _ _ _).isCoherent h.coherent
  recorded := by simpa using h.recorded
  sorted := by simpa using h.sorted

theorem Run.Consistent.begun (h : run.Consistent provider start files directives opened)
    (hnew : path.components ∉ run.identities) (depth : Nat) (content : String) :
    ((run.asked provider path depth).begun directives path content).Consistent provider start files
      directives (opened.push path) where
  answered := (Run.Steps.begun _ _ _ _ _ _).answeredBy h.answered
  accounts := h.accounts.push (by simp) (by simp)
  nodup := by simpa using Run.nodup_identities_append h.nodup hnew
  guardsRead := (Run.Steps.begun _ _ _ _ _ _).guardsRead h.guardsRead
  coherent := (Run.Steps.begun _ _ _ _ _ _).isCoherent h.coherent
  recorded := by
    have hrecorded := List.Subset.trans h.recorded
      (List.subset_append_left run.identities [path.components])
    simpa using hrecorded
  sorted := by simpa using h.sorted

theorem Run.Consistent.unread (h : run.Consistent provider start files directives opened)
    (hfresh : ¬ run.Refers opened path) {importer : Path} {line : Nat} {importText : String}
    {trailing : Option String} :
    (Task.file path).Unread (run.consulted provider importer line importText trailing) opened := by
  intro hclosed
  rw [Run.identities_consulted]
  exact h.accounts.not_mem_identities hfresh hclosed

theorem Run.Consistent.completed
    (h : run.Consistent provider start files directives (opened.push path))
    (hread : path.components ∈ run.identities) (hnew : ¬ run.state.inlined.contains path)
    (hdependencies : files.imports directives path.components ⊆ run.recorded) (expanded : String) :
    (run.completed path expanded).Consistent provider start files directives opened where
  answered := h.answered
  accounts := h.accounts.completed expanded
  nodup := h.nodup
  guardsRead := h.guardsRead
  coherent := h.coherent.add path expanded
  recorded := by
    rw [Run.recorded_completed hnew]
    exact List.append_subset.mpr ⟨h.recorded, List.cons_subset.mpr ⟨hread, List.nil_subset _⟩⟩
  sorted := by
    rw [Run.recorded_completed hnew]
    exact h.sorted.concat hdependencies

theorem Traversed.left_subset {task : Task}
    (h : Traversed files directives task run after pre left) : left ⊆ pre := by
  intro vertex hmem
  exact h.order.perm.mem_iff.mp (List.mem_append_left _ hmem)

theorem Traversed.consistent {limit : Nat} {task : Task} {tree : ExpansionTree}
    (h : Traversed files directives task run after pre left)
    (hexpands : Expands provider directives limit opened task run (.ok tree) after)
    (hrun : run.Consistent provider start files directives opened)
    (hunread : task.Unread run opened) :
    after.Consistent provider start files directives (task.inside opened) := by
  obtain ⟨hnodup, haccounts⟩ := hexpands.identities_nodup hrun.accounts hunread hrun.nodup
  refine ⟨hexpands.steps.answeredBy hrun.answered, haccounts rfl, hnodup,
    hexpands.steps.guardsRead hrun.guardsRead, hexpands.steps.isCoherent hrun.coherent, ?_,
    h.sorted⟩
  rw [h.record, h.reads]
  apply List.append_subset.mpr
  constructor
  · exact List.Subset.trans hrun.recorded (List.subset_append_left _ _)
  · exact List.Subset.trans h.left_subset (List.subset_append_right _ _)

/-- A search of the lines of a file, with the file in front, is a search from the file. -/
theorem Traversed.entered {depth : Nat} {content : String}
    (h : Traversed files directives (.lines path (Text.lines content) 1 0)
      ((run.asked provider path depth).begun directives path content) after pre left)
    (hnew : path.components ∉ run.identities)
    (hcontent : files.content? path.components = some content) :
    Traversed files directives (.file path) run after (path.components :: pre) left where
  order := by
    have hbelow := h.order
    rw [Task.todo, ← SourceFiles.imports_eq_targets hcontent] at hbelow
    simp only [Run.identities_begun, Run.identities_asked, Task.pending, List.append_nil] at hbelow
    have hvisit := DepthFirst.visit hnew hbelow .done
    simpa [Task.todo, Task.pending] using hvisit
  reads := by simpa using h.reads
  record := by simpa using h.record
  sorted := h.sorted
  dependencies := by
    rw [Task.dependencies, SourceFiles.imports_eq_targets hcontent]
    exact h.dependencies
  sound := by
    intro vertex hmem
    rcases List.mem_cons.mp hmem with rfl | hmem
    · exact ⟨content, hcontent, h.lines⟩
    · exact h.sound vertex hmem
  lines := trivial

theorem Traversed.done {number : Nat}
    (hsorted : SuccessorsFirst (files.imports directives) run.recorded) :
    Traversed files directives (.lines file [] number 0) run run [] [] where
  order := .done
  reads := by simp
  record := by simp
  sorted := hsorted
  dependencies := by simp [Task.dependencies, SourceFiles.targets]
  sound := by simp
  lines := by simp [Task.HasSoundLines, SourceFiles.AreSound]

variable {line importText : String} {lines : List String} {number : Nat} {trailing : Option String}

theorem Traversed.plain
    (h : Traversed files directives (.lines file lines (number + 1) 0) run after pre left)
    (hline : ImportReading.ofLine directives line = .absent) :
    Traversed files directives (.lines file (line :: lines) number 0) run after pre left where
  order := by
    rw [Task.todo, SourceFiles.targets_cons_of_absent hline]
    exact h.order
  reads := h.reads
  record := h.record
  sorted := h.sorted
  dependencies := by
    rw [Task.dependencies, SourceFiles.targets_cons_of_absent hline]
    exact h.dependencies
  sound := h.sound
  lines := SourceFiles.AreSound.cons_absent h.lines hline

/-- An import of a file that was recorded leads nowhere new. -/
theorem Traversed.alreadyImported
    (h : Traversed files directives (.lines file lines (number + 1) 0)
      (run.consulted provider file number importText trailing) after pre left)
    (hline : ImportReading.ofLine directives line = .directive importText trailing)
    (htarget : files.target? importText file.components = some path.components)
    (hread : path.components ∈ run.identities) (hknown : path.components ∈ run.recorded) :
    Traversed files directives (.lines file (line :: lines) number 0) run after pre left where
  order := by
    rw [Task.todo, SourceFiles.targets_cons_of_directive hline htarget]
    have horder := h.order
    rw [Run.identities_consulted] at horder
    exact .known hread horder
  reads := by simpa using h.reads
  record := by simpa using h.record
  sorted := h.sorted
  dependencies := by
    rw [Task.dependencies, SourceFiles.targets_cons_of_directive hline htarget]
    have hbefore : run.recorded ⊆ after.recorded := by
      rw [h.record, Run.recorded_consulted]
      exact List.subset_append_left _ _
    exact List.cons_subset.mpr ⟨hbefore hknown, h.dependencies⟩
  sound := h.sound
  lines := SourceFiles.AreSound.cons_directive h.lines hline htarget

/-- The search goes on behind an imported file when that file has been recorded. -/
theorem Traversed.inlined {rest later : List (List Component)} {expanded : String}
    (hchild : Traversed files directives (.file path)
      (run.consulted provider file number importText trailing) middle pre left)
    (hrest : Traversed files directives (.lines file lines (number + 1) 0)
      (middle.completed path expanded) after rest later)
    (hline : ImportReading.ofLine directives line = .directive importText trailing)
    (htarget : files.target? importText file.components = some path.components)
    (hnew : ¬ middle.state.inlined.contains path) :
    Traversed files directives (.lines file (line :: lines) number 0) run after (pre ++ rest)
      (left ++ [path.components] ++ later) where
  order := by
    rw [Task.todo, SourceFiles.targets_cons_of_directive hline htarget]
    have hfirst := hchild.order
    have hsecond := hrest.order
    rw [Run.identities_consulted] at hfirst
    rw [Run.identities_completed, hchild.reads, Run.identities_consulted] at hsecond
    have horder := hfirst.append hsecond
    simpa [Task.todo, Task.pending] using horder
  reads := by
    rw [hrest.reads, Run.identities_completed, hchild.reads, Run.identities_consulted,
      List.append_assoc]
  record := by
    rw [hrest.record, Run.recorded_completed hnew, hchild.record, Run.recorded_consulted]
    simp
  sorted := hrest.sorted
  dependencies := by
    rw [Task.dependencies, SourceFiles.targets_cons_of_directive hline htarget]
    refine List.cons_subset.mpr ⟨?_, hrest.dependencies⟩
    rw [hrest.record, Run.recorded_completed hnew]
    simp
  sound := by
    intro vertex hmem
    rcases List.mem_append.mp hmem with hmem | hmem
    · exact hchild.sound vertex hmem
    · exact hrest.sound vertex hmem
  lines := SourceFiles.AreSound.cons_directive hrest.lines hline htarget

theorem Traversed.mem_identities (h : Traversed files directives (.file path) run after pre left) :
    path.components ∈ after.identities := by
  have hmem : path.components ∈ pre := h.order.perm.mem_iff.mp (by simp [Task.pending])
  rw [h.reads]
  exact List.mem_append_right _ hmem

/-- A file has not been recorded when the search of it ends. -/
theorem Traversed.not_mem_recorded
    (h : Traversed files directives (.file path) run after pre left)
    (hrecorded : run.recorded ⊆ run.identities) : path.components ∉ after.recorded := by
  obtain ⟨hnodup, hfresh⟩ := h.order.fresh
  have hleft : (left ++ [path.components]).Nodup := h.order.perm.nodup_iff.mpr hnodup
  have hmem : path.components ∈ pre := h.order.perm.mem_iff.mp (by simp [Task.pending])
  rw [h.record, List.mem_append]
  rintro (hbefore | hnow)
  · exact hfresh _ hmem (hrecorded hbefore)
  · exact (List.nodup_append.mp hleft).2.2 _ hnow _ List.mem_cons_self rfl

end Steps

theorem Run.Consistent.not_isGuarded {run : Run σ} {provider : Provider σ} {start : σ}
    {files : SourceFiles} {directives : Directives} {opened : OpenFiles} {path : Path}
    (h : run.Consistent provider start files directives opened)
    (hunread : (Task.file path).Unread run opened) (hclosed : ¬ opened.contains path) :
    ¬ run.state.isGuarded path := by
  intro hguarded
  exact hunread hclosed (h.guardsRead path hguarded)

/-- A line that was walked opens no guard if no file does. -/
theorem Run.Walks.openedGuard?_eq_none {provider : Provider σ} {start : σ} {files : SourceFiles}
    {directives : Directives} {run : Run σ} {file : Path} {number : Nat} {line : String}
    {lines : List String} (hserves : provider.Serves files)
    (hunguarded : files.IsUnguarded directives) (h : run.Walks file number (line :: lines))
    (hanswered : run.AnsweredBy provider start)
    (hline : ImportReading.ofLine directives line = .absent) : openedGuard? line lines = none := by
  obtain ⟨content, before, hread, hlines, _⟩ := h
  have hcontent := content?_of_hasRead hserves hanswered hread
  cases hguard : openedGuard? line lines with
  | none => rfl
  | some name =>
    exact absurd ⟨before, line, lines, hlines, hline, by simp [hguard]⟩
      (hunguarded _ content hcontent)

/-- A task that succeeds searches the graph of imports depth first. -/
theorem Expands.traversed {provider : Provider σ} {start : σ} {files : SourceFiles}
    {directives : Directives} {limit : Nat} {opened : OpenFiles} {task : Task} {run after : Run σ}
    {result : Except Stop ExpansionTree} {tree : ExpansionTree}
    (hserves : provider.Serves files) (hunguarded : files.IsUnguarded directives)
    (h : Expands provider directives limit opened task run result after)
    (hresult : result = .ok tree) (hrun : run.Consistent provider start files directives opened)
    (hunread : task.Unread run opened) (hwhole : task.IsWhole) :
    ∃ pre left, Traversed files directives task run after pre left := by
  induction h generalizing tree with
  | tooDeep | circular | unreadable | malformed | unresolved | failedImport => cases hresult
  | alreadyIncluded henter _ _ hknown =>
    obtain ⟨hclosed, _⟩ := OpenFiles.enter_eq_ok henter
    exact absurd hknown (hrun.not_isGuarded hunread hclosed)
  | entered henter hread hnew _ ih =>
    obtain ⟨hclosed, _⟩ := OpenFiles.enter_eq_ok henter
    obtain rfl := OpenFiles.eq_push_of_enter henter
    have hcontent := hserves.content?_of_ok hread
    obtain ⟨pre, left, htraversed⟩ := ih hresult (hrun.begun (hunread hclosed) _ _) trivial rfl
    exact ⟨_, left, htraversed.entered (hunread hclosed) hcontent⟩
  | done =>
    obtain rfl := hwhole
    exact ⟨[], [], .done hrun.sorted⟩
  | inBlock => cases hwhole
  | alreadyImported _ hline hresolve hknown _ ih =>
    obtain ⟨rest, rfl, rfl⟩ := map_eq_ok_iff.mp hresult
    have htarget := hserves.target?_of_ok hresolve
    have hrecorded := (hrun.coherent.mem_components_iff _).mpr hknown.2
    obtain ⟨pre, left, htraversed⟩ := ih rfl (hrun.consulted _ _ _ _) trivial rfl
    exact ⟨pre, left, htraversed.alreadyImported hline htarget (hrun.recorded hrecorded) hrecorded⟩
  | inlined _ hline hresolve hfresh hchild _ ihchild ihrest =>
    obtain ⟨rest, rfl, rfl⟩ := map_eq_ok_iff.mp hresult
    have htarget := hserves.target?_of_ok hresolve
    obtain ⟨pre, left, hfile⟩ := ihchild rfl (hrun.consulted _ _ _ _) (hrun.unread hfresh) trivial
    have hmiddle := hfile.consistent hchild (hrun.consulted _ _ _ _) (hrun.unread hfresh)
    have hread := hfile.mem_identities
    have hnew := (hmiddle.coherent.mem_components_iff _).not.mp
      (hfile.not_mem_recorded (hrun.consulted _ _ _ _).recorded)
    obtain ⟨rest, later, hlines⟩ :=
      ihrest rfl (hmiddle.completed hread hnew hfile.dependencies _) trivial rfl
    exact ⟨_, _, hfile.inlined hlines hline htarget hnew⟩
  | plain hat hline hguard hrest ih =>
    obtain ⟨rest, rfl, rfl⟩ := map_eq_ok_iff.mp hresult
    obtain ⟨pre, left, htraversed⟩ := ih rfl hrun trivial rfl
    exact ⟨pre, left, htraversed.plain hline⟩
  | opening hat hline hguard _ _ _ =>
    have hnone := hat.openedGuard?_eq_none hserves hunguarded hrun.answered hline
    rw [hguard] at hnone
    cases hnone
  | skippedBlock hat hline hguard _ _ _ =>
    have hnone := hat.openedGuard?_eq_none hserves hunguarded hrun.answered hline
    rw [hguard] at hnone
    cases hnone

section Call

variable {provider : Provider σ} {files : SourceFiles} {readable : List Path}
  {directives : Directives} {limit : Nat} {text : String} {source : σ}

theorem Run.consistent_of_fresh (provider : Provider σ) (files : SourceFiles)
    (directives : Directives) (source : σ) :
    Run.Consistent { source } provider source files directives {} where
  answered := .nil
  accounts := by simp [Run.Accounts, Run.reads]
  nodup := by simp [Run.identities, Run.reads]
  guardsRead := by simp [Run.GuardsRead, BatchState.isGuarded, GuardSet.contains]
  coherent := InlinedFiles.isCoherent_empty
  recorded := by simp [Run.recorded]
  sorted := by simp [Run.recorded, SuccessorsFirst]

/-- In a complete graph no call fails. -/
theorem SourceFiles.IsComplete.isOk (hserves : provider.Serves files)
    (hreads : provider.ReadsAmong readable) (hlimit : readable.length < limit)
    (h : files.IsComplete directives (Path.normal text).components) :
    (provider.call directives limit text {} {} source).result.isOk := by
  have hshallow : (provider.call directives limit text {} {} source).result ≠ .error .tooDeep :=
    call_result_ne_tooDeep hreads hlimit
  have hanswered := call_answeredBy provider directives limit text {} {} source
  obtain ⟨result, hexpands, hresult⟩ := call_expands provider directives limit text {} {} source
  rw [hresult] at hshallow ⊢
  cases result with
  | ok tree => rfl
  | error stop =>
    cases stop with
    | tooDeep => exact absurd rfl hshallow
    | failed failure =>
      obtain ⟨sites, root, _, htrail⟩ := hexpands.trail rfl rfl
      exact (h.not_trail hserves hanswered htrail).elim

/-- A call that succeeds has searched the graph from its file. -/
theorem call_traversed (hserves : provider.Serves files)
    (hunguarded : files.IsUnguarded directives)
    (h : (provider.call directives limit text {} {} source).result.isOk) :
    let run := (provider.call directives limit text {} {} source).run
    Traversed files directives (.file (Path.normal text)) ({ source } : Run σ) run
      run.identities run.recorded := by
  intro run
  obtain ⟨result, hexpands, hresult⟩ := call_expands provider directives limit text {} {} source
  rw [hresult, isOk_map] at h
  cases result with
  | error stop => cases h
  | ok tree =>
    obtain ⟨pre, left, htraversed⟩ := hexpands.traversed hserves hunguarded rfl
      (Run.consistent_of_fresh provider files directives source)
      (by simp [Task.Unread, Run.identities, Run.reads]) trivial
    have hreads : run.identities = pre := htraversed.reads
    have hrecord : run.recorded = left := htraversed.record
    rw [hreads, hrecord]
    exact htraversed

/-- A successful search shows that the graph is complete. -/
theorem Traversed.isComplete {run : Run σ} {top : Path} {pre left : List (List Component)}
    (h : Traversed files directives (.file top) ({ source } : Run σ) run pre left)
    (hrecord : run.recorded = left) : files.IsComplete directives top.components where
  sound := by
    intro file hreachable
    have horder := h.order
    exact h.sound file ((horder.mem_iff file).mpr hreachable)
  acyclic := by
    intro file hreachable
    have hmem := (h.order.mem_iff file).mpr hreachable
    have hsorted := h.sorted.concat h.dependencies
    rw [hrecord] at hsorted
    exact hsorted.not_transGen (h.order.perm.nodup_iff.mpr h.order.fresh.1)
      (h.order.perm.mem_iff.mpr hmem)

/-- A call from a fresh state succeeds exactly if every file that can be reached is readable and
well formed, all its imports can be looked up, and no file imports itself in the end. Then the files
are read in the order in which a depth-first search enters them, and all but the first one are
recorded in the order in which the search leaves them, so that each comes after what it imports. -/
theorem call_isOk_iff_isComplete (hserves : provider.Serves files)
    (hreads : provider.ReadsAmong readable) (hlimit : readable.length < limit)
    (hunguarded : files.IsUnguarded directives) :
    let top := (Path.normal text).components
    let call := provider.call directives limit text {} {} source
    (call.result.isOk ↔ files.IsComplete directives top) ∧
    (call.result.isOk →
      (∀ pre post, DepthFirst (files.imports directives) [] [top] pre post ↔
        pre = call.run.identities ∧ post = call.run.recorded ++ [top]) ∧
      call.run.identities.Nodup ∧
      (∀ file, file ∈ call.run.identities ↔ files.Reachable directives top file) ∧
      (∀ file, file ∈ call.run.recorded ↔ files.Reachable directives top file ∧ file ≠ top) ∧
      SuccessorsFirst (files.imports directives) call.run.recorded) := by
  intro top call
  refine ⟨⟨fun hok => ?_, fun hcomplete => ?_⟩, fun hok => ?_⟩
  · exact (call_traversed hserves hunguarded hok).isComplete rfl
  · exact hcomplete.isOk hserves hreads hlimit
  · have htraversed := call_traversed hserves hunguarded hok
    have horder : DepthFirst (files.imports directives) [] [top] call.run.identities
      (call.run.recorded ++ [top]) := htraversed.order
    refine ⟨?_, horder.fresh.1, horder.mem_iff, ?_, htraversed.sorted⟩
    · intro pre post
      constructor
      · exact horder.unique
      · rintro ⟨rfl, rfl⟩
        exact horder
    · intro file
      have hnodup := horder.perm.nodup_iff.mpr horder.fresh.1
      have hleft : file ∈ call.run.recorded ++ [top] ↔ files.Reachable directives top file :=
        horder.perm.mem_iff.trans (horder.mem_iff file)
      rw [List.mem_append, List.mem_singleton] at hleft
      constructor
      · intro hmem
        refine ⟨hleft.mp (.inl hmem), ?_⟩
        rintro rfl
        exact (List.nodup_append.mp hnodup).2.2 _ hmem _ List.mem_cons_self rfl
      · rintro ⟨hreachable, hother⟩
        exact (hleft.mpr hreachable).resolve_right hother

/-- A library in which two files import a third, and one of them imports the other. -/
def diamond : Library :=
  .ofFiles [("main", "#import \"left\"\n#import \"right\"\n"), ("left", "#import \"base\"\n"),
    ("right", "#import \"./left\"\n#import \"base\"\n"), ("base", "int base;\n")]

theorem call_isOk_iff_isComplete_diamond :
    diamond.provider.Serves diamond.sourceFiles ∧
    diamond.provider.ReadsAmong diamond.files.keys ∧ diamond.files.keys.length < 5 ∧
    diamond.sourceFiles.IsUnguarded {} ∧
    (diamond.provider.call {} 5 "main" {} {} ()).result.isOk ∧
    diamond.sourceFiles.IsComplete {} (Path.normal "main").components ∧
    DepthFirst (diamond.sourceFiles.imports {}) [] [[.name "main"]]
      [[.name "main"], [.name "left"], [.name "base"], [.name "right"]]
      [[.name "base"], [.name "left"], [.name "right"], [.name "main"]] := by
  have hserves := diamond.serves rfl
  have hreads := diamond.readsAmong_keys
  have hlimit : diamond.files.keys.length < 5 := by decide +kernel
  have hunguarded : diamond.sourceFiles.IsUnguarded {} := by
    intro file content hcontent
    apply Directives.not_opensGuard
    have hlines : ∀ entry ∈ diamond.files.entries, ∀ line ∈ Text.lines entry.2,
        testedName? line = none := by decide +kernel
    obtain ⟨entry, hentry, rfl⟩ := diamond.exists_entry_of_content? hcontent
    exact hlines entry hentry
  have hok : (diamond.provider.call {} 5 "main" {} {} ()).result.isOk := by decide +kernel
  obtain ⟨hiff, horder⟩ := call_isOk_iff_isComplete hserves hreads hlimit hunguarded
  refine ⟨hserves, hreads, hlimit, hunguarded, hok, hiff.mp hok, ?_⟩
  exact ((horder hok).1 _ _).mpr ⟨by decide +kernel, by decide +kernel⟩

end Call

end ShaderInline
