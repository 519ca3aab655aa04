import ShaderInline.Proofs.Batches
import ShaderInline.Proofs.FailureTrail

/-!
# What a call does to the state

A call only adds to the state that it takes over. It records files behind those that were recorded
before, and never records a file twice, so no digest is overwritten. A file is recorded when its
expansion is complete, and an open file is never recorded. So a call that fails has recorded none of
the files that it was in when it was stopped.
-/
namespace ShaderInline

variable {σ : Type}

/-- Whether some call takes one state of a batch to another, with whatever provider and directives,
and below whatever files. -/
inductive BatchState.CallStep : BatchState → BatchState → Prop where
  | call {σ : Type} (provider : Provider σ) (directives : Directives) (limit : Nat) (text : String)
      (opened : OpenFiles) (state : BatchState) (source : σ) :
      CallStep state (provider.call directives limit text opened state source).state

/-- Whether a later state holds all of an earlier one, what it added in order comes behind, and no
digest has changed. -/
structure BatchState.Continues (later earlier : BatchState) : Prop extends
    later.Extends earlier where
  remarks : earlier.remarks <+: later.remarks
  files : earlier.inlined.files <+: later.inlined.files
  digests : ∀ path, earlier.inlined.contains path →
    later.inlined.digest? path = earlier.inlined.digest? path

namespace Run

variable {provider : Provider σ} {run middle after : Run σ} {path : Path}

theorem Step.remarks_prefix (h : Step provider run after) :
    run.state.remarks <+: after.state.remarks := by
  cases h with
  | remarked => exact List.prefix_append _ _
  | asked | lookedUp | skippedFile | skippedGuard => exact List.prefix_rfl
  | guardedOnce | defined | completed => exact List.prefix_rfl

theorem Steps.remarks_prefix (h : run.Steps provider after) :
    run.state.remarks <+: after.state.remarks := by
  induction h with
  | refl => exact List.prefix_rfl
  | tail _ hstep ih => exact ih.trans hstep.remarks_prefix

/-- What a run has recorded on the way to another one: files that were read, and that were not
recorded before. -/
structure Records (run after : Run σ) (added : List Path) : Prop where
  files : after.state.inlined.files = run.state.inlined.files ++ added
  contains_iff : ∀ path, after.state.inlined.contains path ↔
    run.state.inlined.contains path ∨ ∃ file ∈ added, file ≈ path
  digests : ∀ path, run.state.inlined.contains path →
    after.state.inlined.digest? path = run.state.inlined.digest? path
  read : ∀ file ∈ added, ∃ content, after.HasRead file content
  fresh : ∀ file ∈ added, ¬ run.state.inlined.contains file

namespace Records

variable {added more : List Path}

theorem of_eq (h : after.state.inlined = run.state.inlined) : run.Records after [] := by
  refine ⟨by rw [h, List.append_nil], fun path => by simp [h], ?_, by simp, by simp⟩
  intro path _
  rw [h]

theorem contains (h : run.Records after added) (hknown : run.state.inlined.contains path) :
    after.state.inlined.contains path :=
  (h.contains_iff path).mpr (.inl hknown)

theorem contains_of_mem (h : run.Records after added) {file : Path} (hmem : file ∈ added)
    (hsame : file ≈ path) : after.state.inlined.contains path :=
  (h.contains_iff path).mpr (.inr ⟨file, hmem, hsame⟩)

theorem of_inlined_eq (h : middle.Records after added)
    (heq : middle.state.inlined = run.state.inlined) : run.Records after added :=
  ⟨heq ▸ h.files, heq ▸ h.contains_iff, heq ▸ h.digests, h.read, heq ▸ h.fresh⟩

theorem trans (h : run.Records middle added) (hmore : middle.Records after more)
    (hsub : middle.events ⊆ after.events) : run.Records after (added ++ more) where
  files := by rw [hmore.files, h.files, List.append_assoc]
  contains_iff path := by
    rw [hmore.contains_iff, h.contains_iff]
    simp only [List.mem_append, or_and_right, exists_or, or_assoc]
  digests := by
    intro path hknown
    rw [hmore.digests path (h.contains hknown), h.digests path hknown]
  read := by
    intro file hfile
    rcases List.mem_append.mp hfile with hfile | hfile
    · obtain ⟨content, hread⟩ := h.read file hfile
      exact ⟨content, hread.mono hsub⟩
    · exact hmore.read file hfile
  fresh := by
    intro file hfile
    rcases List.mem_append.mp hfile with hfile | hfile
    · exact h.fresh file hfile
    · exact fun hknown => hmore.fresh file hfile (h.contains hknown)

/-- A file that is recorded for the first time comes last. -/
theorem completed {content : String} (hread : run.HasRead path content)
    (hnew : ¬ run.state.inlined.contains path) (expanded : String) :
    run.Records (run.completed path expanded) [path] where
  files := InlinedFiles.files_add_of_not_contains hnew expanded
  contains_iff other := by
    simp [Run.completed, InlinedFiles.contains_add, or_comm]
  digests := by
    intro other hknown
    have hother : ¬ path ≈ other := by
      intro hsame
      rw [run.state.inlined.contains_congr hsame] at hnew
      exact hnew hknown
    exact (InlinedFiles.digest?_add _ _ _ _).trans (if_neg hother)
  read := by
    intro file hfile
    rw [List.mem_singleton] at hfile
    exact ⟨content, hfile ▸ hread⟩
  fresh := by
    intro file hfile
    rw [List.mem_singleton] at hfile
    exact hfile ▸ hnew

end Records

end Run

/-- A file that was expanded has been read. -/
theorem Yields.exists_hasRead {provider : Provider σ} {directives : Directives}
    {opened : OpenFiles} {path : Path} {run after : Run σ} {tree : ExpansionTree}
    (h : Yields provider directives opened (.file path) run tree after) :
    ∃ content, after.HasRead path content := by
  cases h with
  | @alreadyIncluded _ _ _ content _ hread =>
    refine ⟨content, (opened.push path).size, ?_⟩
    rw [Run.events_noted]
    exact List.mem_append_left _ (Run.read_mem_asked hread _)
  | @entered _ _ _ content _ _ _ hread _ hwalk =>
    refine ⟨content, (opened.push path).size, hwalk.events_prefix.subset ?_⟩
    rw [Run.events_begun]
    exact Run.read_mem_asked hread _

/-- A cycle is made of open files and the file that would close it. -/
theorem OpenFiles.contains_of_mem_chain {opened : OpenFiles} {path other : Path}
    {chain : List Path} (h : opened.enter path = .error chain) (hmem : other ∈ chain) :
    (opened.push path).contains other := by
  obtain ⟨before, file, cycle, hopen, _, _, rfl⟩ := OpenFiles.enter_eq_error h
  rw [OpenFiles.contains_iff]
  refine ⟨other, ?_, Setoid.refl _⟩
  rw [OpenFiles.push, hopen, List.append_assoc]
  exact List.mem_append_right _ hmem

/-- The files that a failure shows to be incomplete: those with an import line that led to it, and
at its root a file with a malformed line or the members of a cycle. -/
def Failure.unfinished : Failure → List Path
  | unreadable _ _ => []
  | circular chain => chain
  | malformed file _ _ => [file]
  | imported _ importer _ inner => importer :: inner.unfinished

/-- Whether a task is about to read the file. -/
def Task.Begins : Task → Path → Prop
  | .file path, other => other = path
  | .lines _ _ _ _, _ => False

namespace Expands

variable {provider : Provider σ} {directives : Directives} {limit : Nat} {opened : OpenFiles}
  {task : Task} {run after : Run σ} {result : Except Stop ExpansionTree} {path : Path}

/-- No open file is recorded, whether or not the task succeeds. -/
theorem contains_of_open (h : Expands provider directives limit opened task run result after)
    (hopen : (task.inside opened).contains path) (hknown : after.state.inlined.contains path) :
    run.state.inlined.contains path := by
  induction h with
  | tooDeep | circular | malformed | done => exact hknown
  | unreadable | alreadyIncluded => exact hknown
  | entered henter _ _ _ ih =>
    obtain rfl := OpenFiles.eq_push_of_enter henter
    simpa using ih hopen hknown
  | unresolved => simpa using hknown
  | alreadyImported _ _ _ _ _ ih => simpa using ih hopen hknown
  | @failedImport _ _ _ _ imported _ opened _ _ _ _ _ _ _ _ _ _ ih =>
    have hinside : (opened.push imported).contains path := by
      rw [OpenFiles.contains_push, Bool.or_eq_true]
      exact .inl hopen
    simpa using ih hinside hknown
  | @inlined _ _ _ _ imported _ opened _ _ _ _ _ _ _ _ _ _ _ hchild _ ihchild ihrest =>
    have hother : ¬ imported ≈ path := by
      intro hsame
      have hclosed := (hchild.yields rfl).not_contains
      rw [opened.contains_congr hsame] at hclosed
      exact hclosed hopen
    have hinside : (opened.push imported).contains path := by
      rw [OpenFiles.contains_push, Bool.or_eq_true]
      exact .inl hopen
    have hmiddle := ihrest hopen hknown
    simp only [Run.completed, InlinedFiles.contains_add, hother, decide_false,
      Bool.false_or] at hmiddle
    simpa using ihchild hinside hmiddle
  | inBlock _ _ ih => exact ih hopen hknown
  | plain _ _ _ _ ih => exact ih hopen hknown
  | opening _ _ _ _ _ ih => exact ih hopen hknown
  | skippedBlock _ _ _ _ _ ih => exact ih hopen hknown

/-- A file is inlined where it is not known, so whatever is recorded comes behind. -/
theorem records (h : Expands provider directives limit opened task run result after) :
    ∃ added, run.Records after added := by
  induction h with
  | tooDeep | circular | malformed | done => exact ⟨[], .of_eq rfl⟩
  | unreadable | alreadyIncluded => exact ⟨[], .of_eq rfl⟩
  | unresolved => exact ⟨[], .of_eq (by simp)⟩
  | entered _ _ _ _ ih =>
    obtain ⟨added, hadded⟩ := ih
    exact ⟨added, hadded.of_inlined_eq (by simp)⟩
  | alreadyImported _ _ _ _ _ ih =>
    obtain ⟨added, hadded⟩ := ih
    exact ⟨added, hadded.of_inlined_eq (by simp)⟩
  | failedImport _ _ _ _ _ ih =>
    obtain ⟨added, hadded⟩ := ih
    exact ⟨added, hadded.of_inlined_eq (by simp)⟩
  | @inlined _ _ _ _ imported _ _ _ middle _ _ _ _ _ _ _ _ hfresh hchild hrest ihchild ihrest =>
    have hyields := hchild.yields rfl
    obtain ⟨content, hread⟩ := hyields.exists_hasRead
    have hnew : ¬ middle.state.inlined.contains imported := by
      intro hknown
      have hbefore := hchild.contains_of_open (by simp [Task.inside, OpenFiles.contains_push])
        hknown
      exact hfresh ⟨hyields.not_contains, by simpa using hbefore⟩
    obtain ⟨inside, hinside⟩ := ihchild
    obtain ⟨later, hlater⟩ := ihrest
    have hrecords := (hinside.trans (.completed hread hnew _) (List.Subset.refl _)).trans hlater
      hrest.events_prefix.subset
    exact ⟨_, hrecords.of_inlined_eq (by simp)⟩
  | inBlock _ _ ih | plain _ _ _ _ ih => exact ih
  | opening _ _ _ _ _ ih | skippedBlock _ _ _ _ _ ih =>
    obtain ⟨added, hadded⟩ := ih
    exact ⟨added, hadded.of_inlined_eq rfl⟩

/-- A file that is read for an import line was not recorded, the imported file included. -/
theorem unknown_of_import {importer imported : Path} {importText : String}
    {trailing : Option String} {number : Nat}
    (h : Expands provider directives limit opened (.file imported)
      (run.consulted provider importer number importText trailing) result after)
    (hfresh : ¬ run.Refers opened imported) (hmem : path ∈ after.reads)
    (hread : path ∈ run.reads ∨ path = imported ∨ ¬ run.state.inlined.contains path) :
    path ∈ run.reads ∨ ¬ run.state.inlined.contains path := by
  rcases hread with hbefore | rfl | hunknown
  · exact .inl hbefore
  · rcases h.closed_of_mem_reads hmem with hbefore | hclosed
    · exact .inl (by simpa using hbefore)
    · exact .inr fun hknown => hfresh ⟨hclosed, hknown⟩
  · exact .inr hunknown

/-- A task reads the file that it begins with, and else only files that were not recorded. -/
theorem unknown_of_mem_reads (h : Expands provider directives limit opened task run result after)
    (hmem : path ∈ after.reads) :
    path ∈ run.reads ∨ task.Begins path ∨ ¬ run.state.inlined.contains path := by
  induction h with
  | tooDeep | circular | malformed | done => exact .inl hmem
  | unreadable | alreadyIncluded =>
    simp only [Run.reads_noted_skippedFile, Run.reads_asked, List.mem_append,
      List.mem_singleton] at hmem
    exact hmem.imp_right .inl
  | entered _ _ _ _ ih =>
    rcases ih hmem with hbefore | hbegins | hunknown
    · simp only [Run.reads_begun, Run.reads_asked, List.mem_append, List.mem_singleton] at hbefore
      exact hbefore.imp_right .inl
    · exact hbegins.elim
    · exact .inr (.inr (by simpa using hunknown))
  | unresolved => exact .inl (by simpa using hmem)
  | alreadyImported _ _ _ _ _ ih => simpa [Task.Begins] using ih hmem
  | failedImport _ _ _ hfresh hchild ih =>
    have hread := hchild.unknown_of_import hfresh hmem (by simpa [Task.Begins] using ih hmem)
    exact hread.imp_right .inr
  | inlined _ _ _ hfresh hchild _ ihchild ihrest =>
    rcases ihrest hmem with hmiddle | hbegins | hunknown
    · have hread := hchild.unknown_of_import hfresh hmiddle
        (by simpa [Task.Begins] using ihchild hmiddle)
      exact hread.imp_right .inr
    · exact hbegins.elim
    · refine .inr (.inr fun hknown => hunknown ?_)
      have hmiddle := hchild.steps.extends.inlined path (by simpa using hknown)
      simp [Run.completed, InlinedFiles.contains_add, hmiddle]
  | inBlock _ _ ih | plain _ _ _ _ ih => exact ih hmem
  | opening _ _ _ _ _ ih => exact ih hmem
  | skippedBlock _ _ _ _ _ ih =>
    have hread := ih hmem
    rw [Run.reads_noted_skippedGuard] at hread
    exact hread

/-- An unfinished file is recorded only if it was open before. -/
theorem open_of_unfinished {failure : Failure}
    (h : Expands provider directives limit opened task run result after)
    (hresult : result = .error (.failed failure))
    (hinside : (task.inside opened).contains task.path) (hmem : path ∈ failure.unfinished)
    (hknown : after.state.inlined.contains path) : (task.inside opened).contains path := by
  induction h generalizing failure with
  | tooDeep | unreadable | alreadyIncluded | done => cases hresult <;> cases hmem
  | circular henter =>
    cases hresult
    exact OpenFiles.contains_of_mem_chain henter hmem
  | malformed =>
    cases hresult
    cases List.mem_singleton.mp hmem
    exact hinside
  | unresolved =>
    cases hresult
    cases List.mem_singleton.mp hmem
    exact hinside
  | entered henter _ _ _ ih =>
    obtain rfl := OpenFiles.eq_push_of_enter henter
    exact ih hresult hinside hmem hknown
  | @failedImport _ _ _ _ imported _ opened stop _ _ _ _ _ _ _ hfresh hchild ih =>
    obtain ⟨inner, rfl, rfl⟩ := Stop.imported_eq_failed (Except.error.inj hresult)
    rcases List.mem_cons.mp hmem with rfl | hmem
    · exact hinside
    · have hopen := ih rfl (by simp [Task.inside, Task.path, OpenFiles.contains_push]) hmem hknown
      have hbefore := hchild.contains_of_open hopen hknown
      rw [Task.inside, OpenFiles.contains_push, Bool.or_eq_true, decide_eq_true_iff] at hopen
      rcases hopen with hopen | hsame
      · exact hopen
      · rw [Run.inlined_consulted, ← InlinedFiles.contains_congr _ hsame] at hbefore
        rw [Task.inside, ← opened.contains_congr hsame]
        by_contra hclosed
        exact hfresh ⟨hclosed, hbefore⟩
  | inlined _ _ _ _ _ _ _ ihrest =>
    exact ihrest (map_eq_error_iff.mp hresult) hinside hmem hknown
  | inBlock _ _ ih => exact ih (map_eq_error_iff.mp hresult) hinside hmem hknown
  | alreadyImported _ _ _ _ _ ih => exact ih (map_eq_error_iff.mp hresult) hinside hmem hknown
  | plain _ _ _ _ ih => exact ih (map_eq_error_iff.mp hresult) hinside hmem hknown
  | opening _ _ _ _ _ ih => exact ih (map_eq_error_iff.mp hresult) hinside hmem hknown
  | skippedBlock _ _ _ _ _ ih => exact ih (map_eq_error_iff.mp hresult) hinside hmem hknown

end Expands

theorem OpenFiles.contains_singleton {path other : Path} :
    (OpenFiles.push {} path).contains other ↔ path ≈ other := by
  simp [OpenFiles.contains, OpenFiles.push]

theorem BatchState.CallStep.isCoherent {state after : BatchState} (h : CallStep state after)
    (hstate : state.inlined.IsCoherent) : after.inlined.IsCoherent := by
  cases h with
  | call provider directives limit text opened _ source =>
    obtain ⟨result, hexpands, _⟩ := call_expands provider directives limit text opened state source
    exact hexpands.steps.isCoherent hstate

/-- In a batch the order of the recorded files agrees with the table of their digests. -/
theorem isCoherent_of_reachable {state : BatchState}
    (h : Relation.ReflTransGen BatchState.CallStep {} state) : state.inlined.IsCoherent := by
  induction h with
  | refl => exact InlinedFiles.isCoherent_empty
  | tail _ hstep ih => exact hstep.isCoherent ih

section Call

variable {provider : Provider σ} {directives : Directives} {limit : Nat} {text : String}
  {state : BatchState} {source : σ} {added : List Path} {file : Path}

theorem call_continues (provider : Provider σ) (directives : Directives) (limit : Nat)
    (text : String) (opened : OpenFiles) (state : BatchState) (source : σ) :
    (provider.call directives limit text opened state source).state.Continues state := by
  obtain ⟨result, hexpands, _⟩ := call_expands provider directives limit text opened state source
  obtain ⟨added, hadded⟩ := hexpands.records
  exact ⟨hexpands.steps.extends, hexpands.steps.remarks_prefix, ⟨added, hadded.files.symm⟩,
    hadded.digests⟩

variable (hadded : Run.Records ({ source, state } : Run σ)
  (provider.call directives limit text {} state source).run added)

include hadded

theorem not_same_top_of_mem_added (hmem : file ∈ added) : ¬ file ≈ Path.normal text := by
  intro hsame
  obtain ⟨result, hexpands, _⟩ := call_expands provider directives limit text {} state source
  have hknown := hadded.contains_of_mem hmem (Setoid.refl file)
  have hopen : (OpenFiles.push {} (Path.normal text)).contains file :=
    OpenFiles.contains_singleton.mpr (Setoid.symm hsame)
  exact hadded.fresh file hmem (hexpands.contains_of_open hopen hknown)

/-- A call that succeeds records whatever it reads beside its own file. -/
theorem mem_added_of_mem_reads
    (hok : (provider.call directives limit text {} state source).result.isOk)
    (hmem : file ∈ (provider.call directives limit text {} state source).run.reads)
    (hother : ¬ file ≈ Path.normal text) : file ∈ added := by
  obtain ⟨result, hexpands, hresult⟩ := call_expands provider directives limit text {} state source
  rw [hresult, isOk_map] at hok
  have hnodup := call_identities_nodup provider directives limit text {} state source
  have haccounts := (hexpands.identities_nodup (by simp [Run.Accounts, Run.reads])
    (by simp [Task.Unread, Run.identities, Run.reads])
    (by simp [Run.identities, Run.reads])).2 hok
  have hknown := (haccounts file hmem).resolve_left
    fun hopen => hother (Setoid.symm (OpenFiles.contains_singleton.mp hopen))
  have hunknown : ¬ state.inlined.contains file := by
    rcases hexpands.unknown_of_mem_reads hmem with hbefore | htop | hunknown
    · simp [Run.reads] at hbefore
    · exact absurd (htop ▸ Setoid.refl _) hother
    · exact hunknown
  obtain ⟨other, hnow, hsame⟩ := ((hadded.contains_iff file).mp hknown).resolve_left hunknown
  obtain ⟨content, hread⟩ := hadded.read other hnow
  rwa [← Run.eq_of_mem_reads hnodup hread.mem_reads hmem hsame]

theorem not_same_unfinished_of_mem_added {failure : Failure} {other : Path}
    (hfailed : (provider.call directives limit text {} state source).result =
      .error (.failed failure))
    (hunfinished : file ∈ failure.unfinished) (hmem : other ∈ added) : ¬ other ≈ file := by
  intro hsame
  obtain ⟨result, hexpands, hresult⟩ := call_expands provider directives limit text {} state source
  have hknown := hadded.contains_of_mem hmem hsame
  have hopen := hexpands.open_of_unfinished (map_eq_error_iff.mp (hresult ▸ hfailed))
    (OpenFiles.contains_singleton.mpr (Setoid.refl _)) hunfinished hknown
  have htop := OpenFiles.contains_singleton.mp hopen
  exact not_same_top_of_mem_added hadded hmem (Setoid.trans hsame (Setoid.symm htop))

theorem not_same_unreadable_of_mem_added {depth : Nat} {cause : String} {other : Path}
    (hread : Event.read file depth (.error cause) ∈
      (provider.call directives limit text {} state source).run.events)
    (hmem : other ∈ added) : ¬ other ≈ file := by
  intro hsame
  obtain ⟨content, otherDepth, hother⟩ := hadded.read other hmem
  cases Run.answer_unique
    (call_identities_nodup provider directives limit text {} state source) hother hread hsame

end Call

/-- What a call does to the state of a batch, however it ends. It forgets nothing, puts what it
records and remarks behind what was there, and changes no digest. It records files that it has read,
each of them once and never its own file: all of them if it succeeds, and none that is unfinished or
that could not be read if it fails. -/
theorem call_keeps_books (provider : Provider σ) (directives : Directives) (limit : Nat)
    (text : String) (state : BatchState) (source : σ)
    (hstate : Relation.ReflTransGen BatchState.CallStep {} state) :
    let top := Path.normal text
    let call := provider.call directives limit text {} state source
    call.state.Continues state ∧ call.state.inlined.IsDistinct ∧
    (∀ path, (call.state.inlined.digest? path).isSome ↔
      ∃ file ∈ call.state.inlined.files, file ≈ path) ∧
    ∃ added, call.state.inlined.files = state.inlined.files ++ added ∧
      (∀ file ∈ added, ¬ state.inlined.contains file ∧ file ∈ call.run.reads ∧ ¬ file ≈ top) ∧
      (call.result.isOk → ∀ file, file ∈ added ↔ file ∈ call.run.reads ∧ ¬ file ≈ top) ∧
      (∀ failure, call.result = .error (.failed failure) →
        ∀ file ∈ failure.unfinished, ∀ other ∈ added, ¬ other ≈ file) ∧
      ∀ file depth cause, Event.read file depth (.error cause) ∈ call.run.events →
        ∀ other ∈ added, ¬ other ≈ file := by
  intro top call
  obtain ⟨result, hexpands, _⟩ := call_expands provider directives limit text {} state source
  obtain ⟨added, hadded⟩ := hexpands.records
  have hnew : ∀ file ∈ added,
      ¬ state.inlined.contains file ∧ file ∈ call.run.reads ∧ ¬ file ≈ top := by
    intro file hmem
    obtain ⟨content, hread⟩ := hadded.read file hmem
    exact ⟨hadded.fresh file hmem, hread.mem_reads, not_same_top_of_mem_added hadded hmem⟩
  have hcoherent : call.state.inlined.IsCoherent :=
    isCoherent_of_reachable (hstate.tail (.call provider directives limit text {} state source))
  refine ⟨call_continues provider directives limit text {} state source, hcoherent.isDistinct,
    hcoherent.isSome_digest?_iff, added, hadded.files, hnew, ?_, ?_, ?_⟩
  · intro hok file
    constructor
    · exact fun hmem => (hnew file hmem).2
    · rintro ⟨hmem, hother⟩
      exact mem_added_of_mem_reads hadded hok hmem hother
  · intro failure hfailed file hunfinished other hmem
    exact not_same_unfinished_of_mem_added hadded hfailed hunfinished hmem
  · intro file depth cause hread other hmem
    exact not_same_unreadable_of_mem_added hadded hread hmem

/-- A library in which the second file imports what the first one does, then a file of its own, and
last one that does not exist. -/
def partlyRecorded : Library :=
  .ofFiles [("first", "#import \"lib\"\n"),
    ("second", "#import \"lib\"\n#import \"part\"\n#import \"gone\"\n"), ("lib", "int l;\n"),
    ("part", "int p;\n")]

def partlyRecordedFailure : Failure :=
  .imported "gone" ⟨"second"⟩ 3 (.unreadable ⟨"gone"⟩ "no such file: gone")

/-- The second call fails after it has inlined a file, which stays recorded. -/
theorem call_keeps_books_partlyRecorded :
    let provider := partlyRecorded.provider
    let state := (provider.call {} 5 "first" {} {} ()).state
    let call := provider.call {} 5 "second" {} state ()
    Relation.ReflTransGen BatchState.CallStep {} state ∧
    state.inlined.files = [⟨"lib"⟩] ∧ call.state.inlined.files = [⟨"lib"⟩, ⟨"part"⟩] ∧
    call.result = .error (.failed partlyRecordedFailure) ∧ call.state.Continues state ∧
    ∃ added, call.state.inlined.files = state.inlined.files ++ added ∧
      ∀ file ∈ partlyRecordedFailure.unfinished, ∀ other ∈ added, ¬ other ≈ file := by
  intro provider state call
  have hstate : Relation.ReflTransGen BatchState.CallStep {} state :=
    .single (.call provider {} 5 "first" {} {} ())
  have hresult : call.result = .error (.failed partlyRecordedFailure) := by decide +kernel
  obtain ⟨hcontinues, _, _, added, hfiles, _, _, hunfinished, _⟩ :=
    call_keeps_books provider {} 5 "second" state () hstate
  exact ⟨hstate, by decide +kernel, by decide +kernel, hresult, hcontinues, added, hfiles,
    hunfinished _ hresult⟩

end ShaderInline
