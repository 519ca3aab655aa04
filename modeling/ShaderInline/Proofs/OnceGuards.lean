import ShaderInline.Proofs.Contributions
import ShaderInline.Proofs.Translation

/-!
# Once guards in a fresh run

A once guard that was met belongs to a file that was read, and no file is read twice. So in a run
that begins from a fresh state no file is passed over for its once guard, and it makes no difference
by which line a file would ask for that. The guards that are met are those of the files that were
read and carry one.
-/
namespace ShaderInline

variable {σ : Type}

/-- Whether the first line of a text that is neither blank nor a comment is the once directive. -/
def Directives.FirstLineIsOnce (directives : Directives) (text : String) : Prop :=
  ∃ before line following, Text.lines text = before ++ line :: following ∧
    (∀ earlier ∈ before, Text.trim earlier = "" ∨ beginsWith "//" (Text.trim earlier)) ∧
    ¬ (Text.trim line = "" ∨ beginsWith "//" (Text.trim line)) ∧
    Text.trim line = directives.onceLine

theorem not_isSignificant_iff (trimmed : String) :
    ¬ isSignificant trimmed ↔ trimmed = "" ∨ beginsWith "//" trimmed := by
  simp [isSignificant, or_iff_not_imp_left]

theorem Directives.guardsOnce_iff (directives : Directives) (text : String) :
    directives.guardsOnce (Text.lines text) ↔ directives.FirstLineIsOnce text := by
  rw [guardsOnce, decide_eq_true_eq, List.find?_map, Option.map_eq_some_iff]
  simp only [List.find?_eq_some_iff_append]
  constructor
  · rintro ⟨line, ⟨hsignificant, before, following, hlines, hbefore⟩, honce⟩
    refine ⟨before, line, following, hlines, fun earlier hmem => ?_, ?_, honce⟩
    · have hearlier := hbefore earlier hmem
      exact (not_isSignificant_iff _).mp (by simpa using hearlier)
    · rw [← not_isSignificant_iff, not_not]
      exact hsignificant
  · rintro ⟨before, line, following, hlines, hbefore, hsignificant, honce⟩
    rw [← not_isSignificant_iff, not_not] at hsignificant
    refine ⟨line, ⟨hsignificant, before, following, hlines, fun earlier hmem => ?_⟩, honce⟩
    have hearlier := (not_isSignificant_iff _).mpr (hbefore earlier hmem)
    simpa using hearlier

namespace Run

variable {provider : Provider σ} {directives : Directives} {run after : Run σ} {path : Path}

/-- Whether the once guards that were met are those of the files that were read and carry one. -/
def MeetsGuards (run : Run σ) (directives : Directives) : Prop :=
  ∀ guard, run.state.onceGuards.contains guard ↔ ∃ file content, run.HasRead file content ∧
    file.components = guard ∧ directives.guardsOnce (Text.lines content)

theorem MeetsGuards.of_eq (h : run.MeetsGuards directives)
    (hguards : after.state.onceGuards = run.state.onceGuards)
    (hread : ∀ file content, after.HasRead file content ↔ run.HasRead file content) :
    after.MeetsGuards directives := by
  intro guard
  rw [hguards, h guard]
  simp only [hread]

theorem hasRead_noted {event : Event} (hevent : event.found? = none) (file : Path)
    (content : String) : (run.noted event).HasRead file content ↔ run.HasRead file content := by
  have hother : ∀ depth, Event.read file depth (.ok content) ≠ event := by
    rintro depth rfl
    cases hevent
  simp [HasRead, hother]

theorem hasRead_asked_of_error {cause : String}
    (hread : (provider.read path run.source).1 = .error cause) (depth : Nat) (file : Path)
    (content : String) :
    (run.asked provider path depth).HasRead file content ↔ run.HasRead file content := by
  simp [HasRead, hread]

theorem hasRead_asked_of_ok {content : String}
    (hread : (provider.read path run.source).1 = .ok content) (depth : Nat) (file : Path)
    (text : String) : (run.asked provider path depth).HasRead file text ↔
      run.HasRead file text ∨ file = path ∧ text = content := by
  simp [HasRead, hread, exists_or]

theorem MeetsGuards.noted (h : run.MeetsGuards directives) {event : Event}
    (hevent : event.found? = none) : (run.noted event).MeetsGuards directives :=
  h.of_eq rfl (hasRead_noted hevent)

theorem MeetsGuards.consulted (h : run.MeetsGuards directives) (provider : Provider σ)
    (file : Path) (line : Nat) (importText : String) (trailing : Option String) :
    (run.consulted provider file line importText trailing).MeetsGuards directives := by
  have hlookedUp : ∀ {run : Run σ}, run.MeetsGuards directives →
      (run.lookedUp provider importText file line).MeetsGuards directives :=
    fun h => MeetsGuards.of_eq (h.noted rfl) rfl fun _ _ => Iff.rfl
  cases trailing with
  | none => exact hlookedUp h
  | some trailing => exact hlookedUp (MeetsGuards.of_eq (h.noted rfl) rfl fun _ _ => Iff.rfl)

/-- A file that is read adds its guard, if it carries one. -/
theorem MeetsGuards.begun (h : run.MeetsGuards directives) {content : String}
    (hread : (provider.read path run.source).1 = .ok content) (depth : Nat) :
    ((run.asked provider path depth).begun directives path content).MeetsGuards directives := by
  intro guard
  have hfiles : ∀ file text,
      ((run.asked provider path depth).begun directives path content).HasRead file text ↔
        run.HasRead file text ∨ file = path ∧ text = content := by
    intro file text
    rw [← hasRead_asked_of_ok hread depth, HasRead, events_begun, ← HasRead]
  simp only [hfiles, or_and_right, exists_or, ← h guard]
  by_cases honce : directives.guardsOnce (Text.lines content)
  · rw [Run.begun, if_pos honce]
    simp [guardedOnce, asked, Run.noted, honce, eq_comm (a := guard)]
  · rw [Run.begun, if_neg honce]
    simp [asked, Run.noted, honce]

theorem GuardsRead.consulted (h : run.GuardsRead) (provider : Provider σ) (file : Path)
    (line : Nat) (importText : String) (trailing : Option String) :
    (run.consulted provider file line importText trailing).GuardsRead :=
  (Steps.consulted run provider file line importText trailing).guardsRead h

theorem GuardsRead.begun (h : run.GuardsRead) (hread : path ∈ run.reads) (directives : Directives)
    (content : String) : (run.begun directives path content).GuardsRead := by
  unfold Run.begun
  split
  · exact h.guardedOnce hread
  · exact h

theorem GuardsRead.asked (h : run.GuardsRead) (provider : Provider σ) (path : Path) (depth : Nat) :
    (run.asked provider path depth).GuardsRead :=
  h.mono rfl (by simp)

theorem GuardsRead.noted (h : run.GuardsRead) (event : Event) : (run.noted event).GuardsRead :=
  h.mono rfl (by simp)

end Run

section Rules

variable {provider : Provider σ} {directives : Directives} {limit : Nat} {opened : OpenFiles}
  {task : Task} {run after : Run σ} {result : Except Stop ExpansionTree}

/-- An expansion meets the guards of the files that it reads, whether or not it succeeds. -/
theorem Expands.meetsGuards (h : Expands provider directives limit opened task run result after)
    (hrun : run.MeetsGuards directives) : after.MeetsGuards directives := by
  induction h with
  | tooDeep | circular | malformed | done => exact hrun
  | unreadable henter hread => exact hrun.of_eq rfl (Run.hasRead_asked_of_error hread _)
  | @alreadyIncluded path content _ _ run entered henter hread honce hknown =>
    have hasked := hrun.begun hread entered.size
    have hsame : (run.asked provider path entered.size).begun directives path content =
        run.asked provider path entered.size := by
      rw [Run.begun, if_pos honce]
      exact Run.guardedOnce_of_isGuarded hknown
    rw [hsame] at hasked
    exact hasked.noted rfl
  | entered _ hread _ _ ih => exact ih (hrun.begun hread _)
  | unresolved => exact hrun.consulted _ _ _ _ _
  | alreadyImported _ _ _ _ _ ih => exact ih (hrun.consulted _ _ _ _ _)
  | failedImport _ _ _ _ _ ih => exact ih (hrun.consulted _ _ _ _ _)
  | inlined _ _ _ _ _ _ ihchild ihrest =>
    exact ihrest ((ihchild (hrun.consulted _ _ _ _ _)).of_eq rfl fun _ _ => Iff.rfl)
  | inBlock _ _ ih => exact ih hrun
  | plain _ _ _ _ ih => exact ih hrun
  | opening _ _ _ _ _ ih => exact ih (hrun.of_eq rfl fun _ _ => Iff.rfl)
  | skippedBlock _ _ _ _ _ ih => exact ih (hrun.noted rfl)

theorem Run.skippedFile_mem_consulted {path file : Path} {number : Nat} {importText : String}
    {trailing : Option String} :
    .skippedFile path ∈ (run.consulted provider file number importText trailing).events ↔
      .skippedFile path ∈ run.events :=
  Run.mem_events_consulted trivial

/-- No file is passed over for its once guard. -/
theorem Expands.skippedFile_mem {final : Run σ} {path : Path}
    (h : Expands provider directives limit opened task run result after)
    (hguards : run.GuardsRead) (hfinal : after.Steps provider final)
    (hnodup : final.identities.Nodup) (hmem : .skippedFile path ∈ after.events) :
    .skippedFile path ∈ run.events := by
  induction h with
  | tooDeep | circular | malformed | done => exact hmem
  | unreadable => simpa using hmem
  | alreadyIncluded _ _ _ hknown =>
    have hasked : Run.Steps provider _ final := .head (.skippedFile _ _) hfinal
    have hnew := Run.readsUntil_of_asked (Run.identities_prefix hasked.events_prefix) hnodup
    exact absurd (hguards _ hknown) hnew.1
  | entered _ _ _ _ ih =>
    simpa using ih ((hguards.asked _ _ _).begun (by simp) _ _) hfinal hmem
  | unresolved => exact Run.skippedFile_mem_consulted.mp hmem
  | alreadyImported _ _ _ _ _ ih =>
    have hconsulted := ih (hguards.consulted _ _ _ _ _) hfinal hmem
    exact Run.skippedFile_mem_consulted.mp hconsulted
  | failedImport _ _ _ _ _ ih =>
    have hconsulted := ih (hguards.consulted _ _ _ _ _) hfinal hmem
    exact Run.skippedFile_mem_consulted.mp hconsulted
  | inlined _ _ _ _ hchild hrest ihchild ihrest =>
    have hmiddle := hchild.steps.guardsRead (hguards.consulted _ _ _ _ _)
    have hbehind := Relation.ReflTransGen.head (.completed _ _ _) (hrest.steps.trans hfinal)
    have hchildren := ihchild (hguards.consulted _ _ _ _ _) hbehind (ihrest hmiddle hfinal hmem)
    exact Run.skippedFile_mem_consulted.mp hchildren
  | inBlock _ _ ih => exact ih hguards hfinal hmem
  | plain _ _ _ _ ih => exact ih hguards hfinal hmem
  | opening _ _ _ _ _ ih => exact ih hguards hfinal hmem
  | skippedBlock _ _ _ _ _ ih =>
    simpa using ih (hguards.noted _) hfinal hmem

end Rules

/-- Whether the marker of a once guard stands somewhere in a text. -/
def ExpansionTree.MarksGuard : ExpansionTree → Prop
  | done => False
  | alreadyIncluded => True
  | copied _ _ rest | skipped _ rest | alreadyImported _ _ rest => MarksGuard rest
  | inlined _ _ content rest => MarksGuard content ∨ MarksGuard rest

theorem Passes.marksGuard {provider : Provider σ} {directives : Directives} {opened : OpenFiles}
    {file : Path} {number skip left : Nat} {line : String} {lines : List String}
    {run after : Run σ} {node : ExpansionTree → ExpansionTree}
    (h : Passes provider directives opened file number line lines skip run node left after)
    (rest : ExpansionTree) : (node rest).MarksGuard ↔ rest.MarksGuard := by
  cases h <;> rfl

theorem Yields.not_marksGuard {provider : Provider σ} {directives : Directives}
    {opened : OpenFiles} {task : Task} {run after : Run σ} {tree : ExpansionTree}
    (h : Yields provider directives opened task run tree after) (hguards : run.GuardsRead)
    (hnodup : after.identities.Nodup) : ¬ tree.MarksGuard := by
  induction h with
  | alreadyIncluded hclosed hread honce hknown =>
    have hyields := Yields.alreadyIncluded hclosed hread honce hknown
    exact absurd hknown (hyields.not_isGuarded hguards hnodup)
  | entered _ _ _ _ ih => exact ih ((hguards.asked _ _ _).begun (by simp) _ _) hnodup
  | done => exact id
  | passed _ hline _ ih =>
    rw [hline.marksGuard]
    exact ih (hline.steps.guardsRead hguards) hnodup
  | inlined _ _ _ _ hchild hrest ihchild ihrest =>
    have hmiddle := hnodup.sublist hrest.identities_prefix.sublist
    rintro (hcontent | hbehind)
    · exact ihchild (hguards.consulted _ _ _ _ _) hmiddle hcontent
    · have hchildren := hchild.steps.guardsRead (hguards.consulted _ _ _ _ _)
      exact ihrest hchildren hnodup hbehind

/-- Whether two runs have come equally far and differ in their once guards alone, which belong to
files that were read. -/
structure Run.IsBeside (other run : Run σ) : Prop where
  source : other.source = run.source
  history : other.history = run.history
  namedGuards : other.state.namedGuards = run.state.namedGuards
  inlined : other.state.inlined = run.state.inlined
  remarks : other.state.remarks = run.state.remarks
  guardsRead : other.GuardsRead ∧ run.GuardsRead

namespace Run.IsBeside

variable {provider : Provider σ} {other run : Run σ} {path : Path}

theorem noted (h : other.IsBeside run) (event : Event) :
    (other.noted event).IsBeside (run.noted event) where
  source := h.source
  history := congrArg (·.push event) h.history
  namedGuards := h.namedGuards
  inlined := h.inlined
  remarks := h.remarks
  guardsRead := ⟨h.guardsRead.1.noted _, h.guardsRead.2.noted _⟩

theorem events_eq (h : other.IsBeside run) : other.events = run.events :=
  congrArg Array.toList h.history

theorem reads_eq (h : other.IsBeside run) : other.reads = run.reads :=
  congrArg (List.filterMap Event.readPath?) h.events_eq

theorem asked (h : other.IsBeside run) (provider : Provider σ) (path : Path) (depth : Nat) :
    (other.asked provider path depth).IsBeside (run.asked provider path depth) := by
  unfold Run.asked
  rw [h.source]
  exact { h.noted _ with source := rfl }

theorem remarked (h : other.IsBeside run) (remark : Remark) :
    (other.remarked remark).IsBeside (run.remarked remark) :=
  { h.noted _ with remarks := congrArg (· ++ [remark]) h.remarks }

theorem consulted (h : other.IsBeside run) (provider : Provider σ) (file : Path) (line : Nat)
    (importText : String) (trailing : Option String) :
    (other.consulted provider file line importText trailing).IsBeside
      (run.consulted provider file line importText trailing) := by
  have hlookedUp : ∀ {other run : Run σ}, other.IsBeside run →
      (other.lookedUp provider importText file line).IsBeside
        (run.lookedUp provider importText file line) := by
    intro other run h
    unfold Run.lookedUp
    rw [h.source]
    exact { h.noted _ with source := rfl }
  cases trailing with
  | none => exact hlookedUp h
  | some trailing => exact hlookedUp (h.remarked _)

/-- Either run may take the file that was just read for one with a once guard. -/
theorem begun (h : other.IsBeside run) (hread : path ∈ run.reads)
    (directives directives' : Directives) (content : String) :
    (other.begun directives' path content).IsBeside (run.begun directives path content) := by
  have hguards : ∀ (run : Run σ) (directives : Directives), ∃ guards,
      run.begun directives path content = { run with state.onceGuards := guards } := by
    intro run directives
    unfold Run.begun
    split <;> exact ⟨_, rfl⟩
  have hother := h.guardsRead.1.begun (h.reads_eq ▸ hread) directives' content
  have hrun := h.guardsRead.2.begun hread directives content
  obtain ⟨guards', hguards'⟩ := hguards other directives'
  obtain ⟨guards, hguards⟩ := hguards run directives
  rw [hguards'] at hother ⊢
  rw [hguards] at hrun ⊢
  exact ⟨h.source, h.history, h.namedGuards, h.inlined, h.remarks, hother, hrun⟩

theorem defined (h : other.IsBeside run) (name : String) :
    (other.defined name).IsBeside (run.defined name) :=
  { h with namedGuards := congrArg (GuardSet.insert · name) h.namedGuards }

theorem completed (h : other.IsBeside run) (path : Path) (expanded : String) :
    (other.completed path expanded).IsBeside (run.completed path expanded) :=
  { h with inlined := congrArg (InlinedFiles.add · path expanded) h.inlined }

end Run.IsBeside

theorem Translation.opens_id (opened : OpenFiles) : ({} : Translation).opens opened = opened := by
  simp [opens]

section Call

variable {provider : Provider σ} {directives : Directives}

/-- What keeps two configurations in step that differ in their once directives. -/
theorem simulates_onceLine {final : Run σ} (onceLine : String) (hnodup : final.identities.Nodup) :
    ({} : Translation).Simulates provider directives provider { directives with onceLine } final
      (fun _ => True) (fun run other => other.IsBeside run) where
  line line := ⟨fun _ trailing h => ⟨trailing, h⟩, id, fun h => ⟨h, rfl⟩, rfl, fun _ => Iff.rfl,
    fun _ => rfl⟩
  same _ _ := Iff.rfl
  apart _ file hmem := by cases hmem
  unreadable := by
    intro run other path cause depth hbeside _ _ hread
    rw [List.length_nil, Nat.zero_add, hbeside.source]
    exact ⟨hread, hbeside.asked provider path depth⟩
  read := by
    intro run other path content depth hbeside _ hfinal hread
    have hnew : path.components ∉ run.identities :=
      (Run.readsUntil_of_asked (Run.identities_prefix hfinal.events_prefix) hnodup).1
    have hnew' : path.components ∉ other.identities := by
      rwa [Run.identities, hbeside.reads_eq]
    have hasked := hbeside.asked provider path depth
    rw [List.length_nil, Nat.zero_add, hbeside.source]
    refine ⟨content, hread, by simp, ?_, hasked.noted _, hasked.begun (by simp) _ _ _⟩
    exact iff_of_false (fun h => hnew' (hbeside.guardsRead.1 path h.2))
      (fun h => hnew (hbeside.guardsRead.2 path h.2))
  unresolved := by
    intro run other file number line importText trailing trailing' cause hbeside _ _ _ hline hline'
      hresolve
    obtain rfl : trailing = trailing' := by
      have hsame := hline.symm.trans hline'
      cases hsame
      rfl
    rw [hbeside.source]
    exact ⟨hresolve, rfl, hbeside.consulted provider file number importText trailing⟩
  resolved := by
    intro run other file number line importText trailing trailing' path hbeside _ _ _ hline hline'
      hresolve
    obtain rfl : trailing = trailing' := by
      have hsame := hline.symm.trans hline'
      cases hsame
      rfl
    rw [hbeside.source, hbeside.inlined]
    exact ⟨hresolve, trivial, rfl, hbeside.consulted provider file number importText trailing⟩
  completed := by
    intro run other importText file number path tree _ hbeside _ _
    rw [Translation.tree_id]
    exact hbeside.completed path _
  names hbeside _ := by rw [hbeside.namedGuards]
  defined name hbeside := hbeside.defined name
  skippedGuard name file number hbeside := hbeside.noted _

/-- In a run from a fresh state the once directive makes no difference, whatever it is. Both calls
ask the same questions and come to the same text or failure, and they leave the same named guards,
inlined files and remarks. No file is passed over for its once guard, and no text has a marker for
one. The once guards in the end are those of the files that were read and whose first line that is
neither blank nor a comment is the once directive. -/
theorem call_of_onceLine (provider : Provider σ) (directives : Directives) (onceLine : String)
    (limit : Nat) (text : String) (opened : OpenFiles) (source : σ) :
    let call := provider.call directives limit text opened {} source
    let other := provider.call { directives with onceLine } limit text opened {} source
    (other.result = call.result ∧ other.run.reads = call.run.reads ∧
      other.run.events = call.run.events ∧ other.run.source = call.run.source ∧
      other.state.namedGuards = call.state.namedGuards ∧
      other.state.inlined = call.state.inlined ∧ other.state.remarks = call.state.remarks) ∧
    (∀ path, .skippedFile path ∉ call.run.events) ∧
    (∀ tree, (expandFile provider directives limit opened (Path.normal text) { source }).1 =
      .ok tree → ¬ tree.MarksGuard) ∧
    ∀ guard, call.state.onceGuards.contains guard ↔ ∃ file content,
      call.run.HasRead file content ∧ file.components = guard ∧
      directives.FirstLineIsOnce content := by
  intro call other
  have hnodup : call.run.identities.Nodup :=
    call_identities_nodup provider directives limit text opened {} source
  have hfresh : Run.GuardsRead { source } := Run.guardsRead_of_fresh source
  have hexpands := expands_expandFile provider directives limit opened (Path.normal text) { source }
  refine ⟨?_, fun path hmem => ?_, fun tree htree => ?_, fun guard => ?_⟩
  · have hbeside : Run.IsBeside { source } { source } :=
      ⟨rfl, rfl, rfl, rfl, rfl, hfresh, hfresh⟩
    obtain ⟨ended, hcall, hother, _, hend⟩ :=
      call_translate (simulates_onceLine onceLine hnodup) rfl (by simp) trivial hbeside
    rw [Translation.opens_id] at hother hend
    rw [Translation.result_id] at hother
    exact ⟨hother.trans hcall.symm, hend.reads_eq, hend.events_eq, hend.source, hend.namedGuards,
      hend.inlined, hend.remarks⟩
  · have hbefore := hexpands.skippedFile_mem hfresh .refl hnodup hmem
    simp [Run.events] at hbefore
  · exact (hexpands.yields htree).not_marksGuard hfresh hnodup
  · have hmet : Run.MeetsGuards { source } directives := by
      intro guard
      simp [GuardSet.contains, Run.HasRead, Run.events]
    simp only [← directives.guardsOnce_iff]
    exact hexpands.meetsGuards hmet guard

end Call

/-- A library in which two files import one that carries a once guard below a comment. -/
def guardedImport : Library :=
  .ofFiles [("main", "#import \"a\"\n#import \"lib\"\n"), ("a", "#import \"lib\" twice\n"),
    ("lib", "// shared\n\n #pragma once\nint l;\n")]

def guardedImportTree : ExpansionTree :=
  .inlined "a" ⟨"a"⟩ (.inlined "lib" ⟨"lib"⟩ (.copied "// shared\n" none (.copied "\n" none
    (.copied " #pragma once\n" none (.copied "int l;\n" none .done)))) .done)
    (.alreadyImported "lib" ⟨"lib"⟩ .done)

theorem call_of_onceLine_guardedImport :
    let call := guardedImport.provider.call {} 3 "main" {} {} ()
    let other := guardedImport.provider.call { onceLine := "int l;" } 3 "main" {} {} ()
    (expandFile guardedImport.provider {} 3 {} (Path.normal "main") { source := () }).1 =
      .ok guardedImportTree ∧ ¬ guardedImportTree.MarksGuard ∧
    other.result = call.result ∧ other.run.events = call.run.events ∧
    (∀ guard, call.state.onceGuards.contains guard ↔ ∃ file content,
      call.run.HasRead file content ∧ file.components = guard ∧
      ({} : Directives).FirstLineIsOnce content) ∧
    call.state.onceGuards.members = [Path.components ⟨"lib"⟩] ∧
    other.state.onceGuards.members = [] := by
  intro call other
  obtain ⟨⟨hresult, _, hevents, _⟩, _, hmarks, honce⟩ :=
    call_of_onceLine guardedImport.provider {} "int l;" 3 "main" {} ()
  have htree : (expandFile guardedImport.provider {} 3 {} (Path.normal "main")
      { source := () }).1 = .ok guardedImportTree := by decide +kernel
  exact ⟨htree, hmarks _ htree, hresult, hevents, honce, by decide +kernel, by decide +kernel⟩

end ShaderInline
