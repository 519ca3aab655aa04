import Mathlib.Data.List.Nodup
import Mathlib.Data.List.Pairwise
import Mathlib.Data.List.Perm.Subperm
import ShaderInline.Proofs.Calls
import ShaderInline.Provider.Library

/-!
# Every file is read once

A file that was read in a call is open until its last line has been walked, and has been inlined
from then on. Neither an open file nor an inlined one is read, so no file is read twice. Of the
files that are asked for only the last one can be unreadable, and every open file was asked for, so
finitely many readable files bound the reads of a call and its nesting.
-/
namespace ShaderInline

variable {σ : Type}

namespace Run

/-- The files asked for, as paths are compared. -/
def identities (run : Run σ) : List (List Component) := run.reads.map Path.components

@[simp] theorem identities_asked (run : Run σ) (provider : Provider σ) (path : Path)
    (depth : Nat) :
    (run.asked provider path depth).identities = run.identities ++ [path.components] := by
  simp [identities]

theorem nodup_identities_append {run : Run σ} {path : Path} (hnodup : run.identities.Nodup)
    (hnew : path.components ∉ run.identities) :
    (run.identities ++ [path.components]).Nodup := by
  rw [← List.concat_eq_append]
  exact hnodup.concat hnew

@[simp] theorem identities_consulted (run : Run σ) (provider : Provider σ) (file : Path)
    (line : Nat) (importText : String) (trailing : Option String) :
    (run.consulted provider file line importText trailing).identities = run.identities := by
  simp [identities]

@[simp] theorem identities_begun (run : Run σ) (directives : Directives) (path : Path)
    (content : String) : (run.begun directives path content).identities = run.identities := by
  simp [identities]

@[simp] theorem identities_completed (run : Run σ) (path : Path) (expanded : String) :
    (run.completed path expanded).identities = run.identities := rfl

theorem identities_prefix {run after : Run σ} (h : run.events <+: after.events) :
    run.identities <+: after.identities :=
  (h.filterMap _).map _

section Contents

variable {run : Run σ} {file other : Path} {number : Nat}

instance (run : Run σ) (file : Path) (content : String) : Decidable (run.HasRead file content) :=
  decidable_of_iff (run.events.any fun event => match event with
      | .read path _ (.ok text) => path = file ∧ text = content
      | _ => false) <| by
    rw [List.any_eq_true]
    constructor
    · rintro ⟨event, hmem, hevent⟩
      split at hevent
      case h_1 path depth text =>
        obtain ⟨rfl, rfl⟩ := of_decide_eq_true hevent
        exact ⟨depth, hmem⟩
      case h_2 => cases hevent
    · rintro ⟨depth, hmem⟩
      exact ⟨_, hmem, by simp⟩

/-- A file has one spelling in a run that asks for no file twice. -/
theorem eq_of_mem_reads (hnodup : run.identities.Nodup) (hfile : file ∈ run.reads)
    (hother : other ∈ run.reads) (hsame : file ≈ other) : file = other :=
  List.inj_on_of_nodup_map hnodup hfile hother hsame

/-- Two answers for the same file are one if no file was asked for twice. -/
theorem answer_unique (hnodup : run.identities.Nodup) {depth otherDepth : Nat}
    {answer otherAnswer : Except String String} (h : Event.read file depth answer ∈ run.events)
    (hother : Event.read other otherDepth otherAnswer ∈ run.events) (hsame : file ≈ other) :
    answer = otherAnswer := by
  have hidentities : run.identities =
      run.events.filterMap fun event => event.readPath?.map Path.components := by
    rw [identities, reads, events, List.map_filterMap]
  rw [hidentities, List.Nodup, List.pairwise_filterMap] at hnodup
  have hsymm : Std.Symm fun first second : Event =>
      ∀ identity, first.readPath?.map Path.components = some identity →
        ∀ identity', second.readPath?.map Path.components = some identity' →
          identity ≠ identity' :=
    ⟨fun first second hne identity hfirst identity' hsecond =>
      (hne identity' hsecond identity hfirst).symm⟩
  by_contra hne
  have hevents : Event.read file depth answer ≠ .read other otherDepth otherAnswer := by
    simp [hne]
  exact List.Pairwise.forall hnodup h hother hevents _ rfl _ rfl hsame

/-- A file that is read once has one content. -/
theorem HasRead.unique {content content' : String} (h : run.HasRead file content)
    (hother : run.HasRead file content') (hnodup : run.identities.Nodup) : content = content' := by
  obtain ⟨depth, hmem⟩ := h
  obtain ⟨depth', hmem'⟩ := hother
  exact Except.ok.inj (answer_unique hnodup hmem hmem' (Setoid.refl _))

theorem HasLine.mem_reads {line : String} (h : run.HasLine file number line) : file ∈ run.reads := by
  obtain ⟨content, hread, _⟩ := h
  exact hread.mem_reads

theorem HasLine.unique {line line' : String} (h : run.HasLine file number line)
    (hother : run.HasLine file number line') (hnodup : run.identities.Nodup) : line = line' := by
  obtain ⟨content, hread, hline⟩ := h
  obtain ⟨content', hread', hline'⟩ := hother
  obtain rfl := hread.unique hread' hnodup
  exact Option.some.inj (hline.symm.trans hline')

theorem HasLine.pos {line : String} (h : run.HasLine file number line) : 1 ≤ number := by
  obtain ⟨content, _, hline⟩ := h
  cases number with
  | zero => cases hline
  | succ index => omega

theorem Walks.unique {lines lines' : List String} (h : run.Walks file number lines)
    (hother : run.Walks file number lines') (hnodup : run.identities.Nodup) : lines = lines' := by
  obtain ⟨content, before, hread, hlines, hnumber⟩ := h
  obtain ⟨content', before', hread', hlines', hnumber'⟩ := hother
  obtain rfl := hread.unique hread' hnodup
  exact (List.append_inj (hlines.symm.trans hlines') (by omega)).2

theorem Walks.eq_of_hasLine {line line' : String} {lines : List String}
    (h : run.Walks file number (line :: lines)) (hline : run.HasLine file number line')
    (hnodup : run.identities.Nodup) : line' = line :=
  hline.unique h.hasLine hnodup

/-- Behind the last line of a file there is none. -/
theorem Walks.not_hasLine {line : String} {n : Nat} (h : run.Walks file number [])
    (hle : number ≤ n) (hnodup : run.identities.Nodup) : ¬ run.HasLine file n line := by
  rintro ⟨content', hread', hline⟩
  obtain ⟨content, before, hread, hlines, rfl⟩ := h
  obtain rfl := hread.unique hread' hnodup
  obtain ⟨index, rfl⟩ := Nat.exists_eq_add_one_of_ne_zero (Nat.ne_zero_of_lt hle)
  obtain ⟨hindex, _⟩ := List.getElem?_eq_some_iff.mp hline
  simp [hlines] at hindex
  omega
end Contents

/-- Every file that was asked for is open or has been inlined. -/
def Accounts (run : Run σ) (opened : OpenFiles) : Prop :=
  ∀ path ∈ run.reads, opened.contains path ∨ run.state.inlined.contains path

variable {run : Run σ} {opened : OpenFiles} {path : Path}

theorem Accounts.not_mem_identities (h : run.Accounts opened) (hfresh : ¬ run.Refers opened path)
    (hclosed : ¬ opened.contains path) : path.components ∉ run.identities := by
  intro hmem
  obtain ⟨other, hother, hequiv⟩ := List.mem_map.mp hmem
  rcases h other hother with hopen | hinlined
  · rw [opened.contains_congr hequiv] at hopen
    exact hclosed hopen
  · rw [run.state.inlined.contains_congr hequiv] at hinlined
    exact hfresh ⟨hclosed, hinlined⟩

theorem Accounts.push (h : run.Accounts opened) {after : Run σ}
    (hreads : after.reads = run.reads ++ [path])
    (hinlined : after.state.inlined = run.state.inlined) : after.Accounts (opened.push path) := by
  intro other hother
  rw [hreads, List.mem_append, List.mem_singleton] at hother
  rw [OpenFiles.contains_push, hinlined]
  rcases hother with hother | rfl
  · rcases h other hother with hopen | hdone
    · exact .inl (by simp [hopen])
    · exact .inr hdone
  · exact .inl (by simp)

/-- A file that has been inlined need not be open any more. -/
theorem Accounts.completed (h : run.Accounts (opened.push path)) (expanded : String) :
    (run.completed path expanded).Accounts opened := by
  intro other hother
  have hinlined : (run.completed path expanded).state.inlined.contains other =
      (decide (path ≈ other) || run.state.inlined.contains other) :=
    InlinedFiles.contains_add _ _ _ _
  rw [hinlined]
  rcases h other hother with hopen | hdone
  · rw [OpenFiles.contains_push, Bool.or_eq_true] at hopen
    rcases hopen with hopen | hsame
    · exact .inl hopen
    · exact .inr (by simp [hsame])
  · exact .inr (by simp [hdone])

/-- Every file with a once guard that was met has been asked for. -/
def GuardsRead (run : Run σ) : Prop :=
  ∀ path, run.state.isGuarded path → path.components ∈ run.identities

variable {after : Run σ}

theorem GuardsRead.mono (h : run.GuardsRead)
    (hguards : after.state.onceGuards = run.state.onceGuards)
    (hreads : run.events <+: after.events) : after.GuardsRead := by
  intro path hguarded
  rw [BatchState.isGuarded, hguards] at hguarded
  have hsub : run.identities ⊆ after.identities := ((hreads.filterMap _).map _).subset
  exact hsub (h path hguarded)

theorem GuardsRead.guardedOnce (h : run.GuardsRead) (hread : path ∈ run.reads) :
    (run.guardedOnce path).GuardsRead := by
  intro other hguarded
  have hmet : run.state.onceGuards.contains other.components ∨
      other.components = path.components := by
    simpa [Run.guardedOnce, BatchState.isGuarded] using hguarded
  rcases hmet with hbefore | hnow
  · exact h other hbefore
  · rw [hnow]
    exact List.mem_map_of_mem hread

theorem Step.guardsRead {provider : Provider σ} (h : Step provider run after)
    (hrun : run.GuardsRead) : after.GuardsRead := by
  have hgrown := h.events_prefix
  cases h with
  | guardedOnce hread => exact hrun.guardedOnce hread
  | asked | lookedUp | skippedFile | skippedGuard | remarked => exact hrun.mono rfl hgrown
  | defined | completed => exact hrun

/-- Once guards are met in files that are read. -/
theorem Steps.guardsRead {provider : Provider σ} (h : run.Steps provider after)
    (hrun : run.GuardsRead) : after.GuardsRead :=
  h.preserve (fun _ _ hstep hguards => hstep.guardsRead hguards) hrun

theorem guardsRead_of_fresh (source : σ) : GuardsRead { source } := by
  simp [GuardsRead, BatchState.isGuarded, GuardSet.contains]

/-- Every read happened at most as deep below `base` open files as there were reads until now. -/
def NestedBelow (run : Run σ) (base : Nat) : Prop :=
  ∀ path depth answer, Event.read path depth answer ∈ run.events → depth ≤ base + run.reads.length

variable {base : Nat}

theorem NestedBelow.asked (h : run.NestedBelow base) (hbase : opened.size ≤ base + run.reads.length)
    (provider : Provider σ) (path : Path) :
    (run.asked provider path (opened.push path).size).NestedBelow base := by
  intro other otherDepth answer hmem
  rw [events_asked, List.mem_append, List.mem_singleton] at hmem
  rw [reads_asked, List.length_append, List.length_singleton]
  rcases hmem with hbefore | hnow
  · have := h _ _ _ hbefore
    omega
  · cases hnow
    rw [OpenFiles.size_push]
    omega

theorem NestedBelow.consulted (h : run.NestedBelow base) (provider : Provider σ) (file : Path)
    (line : Nat) (importText : String) (trailing : Option String) :
    (run.consulted provider file line importText trailing).NestedBelow base := by
  intro path depth answer hmem
  rw [reads_consulted]
  apply h path depth answer
  cases trailing with
  | none => simpa [Run.consulted, remarkedOn] using hmem
  | some trailing => simpa [Run.consulted, remarkedOn, remarked, events, noted, lookedUp] using hmem

end Run

namespace Task

/-- What is open while a task is under way. -/
def inside (opened : OpenFiles) : Task → OpenFiles
  | .file path => opened.push path
  | .lines _ _ _ _ => opened

/-- A file that a task is to read has not been read. -/
def Unread (run : Run σ) (opened : OpenFiles) : Task → Prop
  | .file path => ¬ opened.contains path → path.components ∉ run.identities
  | .lines _ _ _ _ => True

end Task

namespace Expands

variable {provider : Provider σ} {directives : Directives} {limit : Nat} {opened : OpenFiles}
  {task : Task} {run after : Run σ} {result : Except Stop ExpansionTree}

/-- A file is asked for once. The invariant is that a file that was asked for is open or has been
inlined, and it holds again when a task has come to its end. -/
theorem identities_nodup
    (h : Expands provider directives limit opened task run result after)
    (haccounts : run.Accounts opened) (hunread : task.Unread run opened)
    (hnodup : run.identities.Nodup) :
    after.identities.Nodup ∧ (result.isOk → after.Accounts (task.inside opened)) := by
  induction h with
  | tooDeep | circular | malformed => exact ⟨hnodup, fun h => nomatch h⟩
  | unreadable henter _ =>
    obtain ⟨hclosed, _⟩ := OpenFiles.enter_eq_ok henter
    have hasked := Run.nodup_identities_append hnodup (hunread hclosed)
    refine ⟨?_, fun h => nomatch h⟩
    rwa [Run.identities_asked]
  | alreadyIncluded henter _ _ _ =>
    obtain ⟨hclosed, _⟩ := OpenFiles.enter_eq_ok henter
    have hasked := Run.nodup_identities_append hnodup (hunread hclosed)
    refine ⟨?_, fun _ => haccounts.push (by simp) rfl⟩
    simpa [Run.identities] using hasked
  | entered henter _ _ _ ih =>
    obtain ⟨hclosed, _⟩ := OpenFiles.enter_eq_ok henter
    have hasked := Run.nodup_identities_append hnodup (hunread hclosed)
    obtain rfl := OpenFiles.eq_push_of_enter henter
    refine ih (haccounts.push (by simp) (by simp)) trivial ?_
    simpa [Run.identities] using hasked
  | done => exact ⟨hnodup, fun _ => haccounts⟩
  | unresolved =>
    refine ⟨?_, fun h => nomatch h⟩
    simpa [Run.identities] using hnodup
  | alreadyImported _ _ _ _ _ ih =>
    rw [isOk_map]
    refine ih ?_ trivial ?_
    · simpa [Run.Accounts] using haccounts
    · simpa [Run.identities] using hnodup
  | failedImport _ _ _ hfresh _ ih =>
    refine ⟨(ih ?_ ?_ ?_).1, fun h => nomatch h⟩
    · simpa [Run.Accounts] using haccounts
    · intro hclosed
      simpa [Run.identities] using haccounts.not_mem_identities hfresh hclosed
    · simpa [Run.identities] using hnodup
  | inlined _ _ _ hfresh _ _ ihchild ihrest =>
    rw [isOk_map]
    have hchild := ihchild (by simpa [Run.Accounts] using haccounts)
      (fun hclosed => by
        simpa [Run.identities] using haccounts.not_mem_identities hfresh hclosed)
      (by simpa [Run.identities] using hnodup)
    exact ihrest ((hchild.2 rfl).completed _) trivial hchild.1
  | inBlock _ _ ih =>
    rw [isOk_map]
    exact ih haccounts trivial hnodup
  | plain _ _ _ _ ih =>
    rw [isOk_map]
    exact ih haccounts trivial hnodup
  | opening _ _ _ _ _ ih =>
    rw [isOk_map]
    exact ih haccounts trivial hnodup
  | skippedBlock _ _ _ _ _ ih =>
    rw [isOk_map]
    refine ih ?_ trivial ?_
    · simpa [Run.Accounts] using haccounts
    · simpa [Run.identities] using hnodup

/-- No file that is open before a task is read by it. -/
theorem closed_of_mem_reads
    (h : Expands provider directives limit opened task run result after) {path : Path}
    (hmem : path ∈ after.reads) : path ∈ run.reads ∨ ¬ opened.contains path := by
  induction h with
  | tooDeep | circular | malformed | done => exact .inl hmem
  | unreadable henter _ =>
    obtain ⟨hclosed, _⟩ := OpenFiles.enter_eq_ok henter
    rw [Run.reads_asked, List.mem_append, List.mem_singleton] at hmem
    rcases hmem with hmem | rfl
    · exact .inl hmem
    · exact .inr hclosed
  | alreadyIncluded henter _ _ _ =>
    obtain ⟨hclosed, _⟩ := OpenFiles.enter_eq_ok henter
    rw [Run.reads_noted_skippedFile, Run.reads_asked, List.mem_append,
      List.mem_singleton] at hmem
    rcases hmem with hmem | rfl
    · exact .inl hmem
    · exact .inr hclosed
  | entered henter _ _ _ ih =>
    obtain ⟨hclosed, _⟩ := OpenFiles.enter_eq_ok henter
    obtain rfl := OpenFiles.eq_push_of_enter henter
    have hwalk := ih hmem
    rw [Run.reads_begun, Run.reads_asked, List.mem_append, List.mem_singleton,
      OpenFiles.contains_push] at hwalk
    rcases hwalk with (hbefore | rfl) | houtside
    · exact .inl hbefore
    · exact .inr hclosed
    · exact .inr fun hopen => houtside (by simp [hopen])
  | unresolved => exact .inl (by simpa using hmem)
  | alreadyImported _ _ _ _ _ ih => simpa using ih hmem
  | failedImport _ _ _ _ _ ih => simpa using ih hmem
  | inlined _ _ _ _ _ _ ihchild ihrest =>
    rcases ihrest hmem with hmiddle | hclosed
    · simpa using ihchild hmiddle
    · exact .inr hclosed
  | inBlock _ _ ih => exact ih hmem
  | plain _ _ _ _ ih => exact ih hmem
  | opening _ _ _ _ _ ih => exact ih hmem
  | skippedBlock _ _ _ _ _ ih => simpa using ih hmem

/-- Only the file that is asked for last can be unreadable, and then the run fails. -/
theorem length_reads_le
    (h : Expands provider directives limit opened task run result after)
    (hrun : run.reads.length = run.found.length) :
    after.reads.length ≤ after.found.length + 1 ∧
      (result.isOk → after.reads.length = after.found.length) := by
  induction h with
  | tooDeep | circular | malformed | done => exact ⟨by omega, fun _ => hrun⟩
  | unreadable _ hread =>
    refine ⟨?_, fun h => nomatch h⟩
    rw [Run.found_asked_of_error hread, Run.reads_asked, List.length_append,
      List.length_singleton]
    omega
  | alreadyIncluded _ hread _ _ =>
    rw [Run.reads_noted_skippedFile, Run.found_noted_skippedFile,
      Run.found_asked_of_ok hread, Run.reads_asked, List.length_append, List.length_append]
    exact ⟨by simp [hrun], fun _ => by simp [hrun]⟩
  | entered _ hread _ _ ih =>
    refine ih ?_
    rw [Run.reads_begun, Run.found_begun, Run.found_asked_of_ok hread, Run.reads_asked,
      List.length_append, List.length_append, hrun]
  | unresolved =>
    rw [Run.reads_consulted, Run.found_consulted]
    exact ⟨by omega, fun _ => hrun⟩
  | alreadyImported _ _ _ _ _ ih =>
    rw [isOk_map]
    exact ih (by simpa using hrun)
  | failedImport _ _ _ _ _ ih => exact ⟨(ih (by simpa using hrun)).1, fun h => nomatch h⟩
  | inlined _ _ _ _ _ _ ihchild ihrest =>
    rw [isOk_map]
    obtain ⟨_, hchild⟩ := ihchild (by simpa using hrun)
    exact ihrest (by simpa using hchild rfl)
  | inBlock _ _ ih =>
    rw [isOk_map]
    exact ih hrun
  | plain _ _ _ _ ih =>
    rw [isOk_map]
    exact ih hrun
  | opening _ _ _ _ _ ih =>
    rw [isOk_map]
    exact ih hrun
  | skippedBlock _ _ _ _ _ ih =>
    rw [isOk_map]
    exact ih (by simpa using hrun)

/-- Every file that is open above `base` others was asked for, so the nesting of files never
exceeds the number of reads. -/
theorem nestedBelow {base : Nat}
    (h : Expands provider directives limit opened task run result after)
    (hbase : opened.size ≤ base + run.reads.length) (hrun : run.NestedBelow base) :
    after.NestedBelow base := by
  induction h with
  | tooDeep | circular | malformed | done => exact hrun
  | unreadable henter _ =>
    obtain rfl := OpenFiles.eq_push_of_enter henter
    exact hrun.asked hbase _ _
  | alreadyIncluded henter _ _ _ =>
    obtain rfl := OpenFiles.eq_push_of_enter henter
    simpa [Run.NestedBelow] using hrun.asked hbase provider _
  | entered henter _ _ _ ih =>
    obtain rfl := OpenFiles.eq_push_of_enter henter
    refine ih ?_ ?_
    · rw [OpenFiles.size_push, Run.reads_begun, Run.reads_asked, List.length_append,
        List.length_singleton]
      omega
    · simpa [Run.NestedBelow] using hrun.asked hbase provider _
  | unresolved => exact hrun.consulted _ _ _ _ _
  | alreadyImported _ _ _ _ _ ih =>
    exact ih (by rwa [Run.reads_consulted]) (hrun.consulted _ _ _ _ _)
  | failedImport _ _ _ _ _ ih =>
    exact ih (by rwa [Run.reads_consulted]) (hrun.consulted _ _ _ _ _)
  | inlined _ _ _ _ hchild _ ihchild ihrest =>
    have hmiddle := ihchild (by rwa [Run.reads_consulted]) (hrun.consulted _ _ _ _ _)
    have hgrown := hchild.reads_prefix.length_le
    rw [Run.reads_consulted] at hgrown
    refine ihrest ?_ hmiddle
    rw [Run.reads_completed]
    omega
  | inBlock _ _ ih => exact ih hbase hrun
  | plain _ _ _ _ ih => exact ih hbase hrun
  | opening _ _ _ _ _ ih => exact ih hbase hrun
  | skippedBlock _ _ _ _ _ ih =>
    refine ih ?_ ?_
    · rwa [Run.reads_noted_skippedGuard]
    · simpa [Run.NestedBelow] using hrun

end Expands

section Bounds

variable {provider : Provider σ} {readable : List Path} {run : Run σ} {start : σ}

theorem exists_known_of_mem_found (hreads : provider.ReadsAmong readable)
    (hanswered : run.AnsweredBy provider start) {path : Path} (hmem : path ∈ run.found) :
    ∃ known ∈ readable, known ≈ path := by
  obtain ⟨event, hevent, hfound⟩ := List.mem_filterMap.mp hmem
  obtain ⟨source, next, hanswer⟩ := hanswered.exists_takes hevent
  cases event with
  | read other depth answer =>
    cases answer with
    | ok content =>
      cases hfound
      have hread : provider.read path source = (.ok content, next) := hanswer
      exact hreads path source content (by rw [hread])
    | error cause => cases hfound
  | _ => cases hfound

/-- Different files that were read are named by different readable paths. -/
theorem length_found_le (hreads : provider.ReadsAmong readable)
    (hanswered : run.AnsweredBy provider start) (hnodup : run.identities.Nodup) :
    run.found.length ≤ readable.length := by
  have hdistinct : (run.found.map Path.components).Nodup :=
    hnodup.sublist (run.found_sublist_reads.map _)
  have hsubset : run.found.map Path.components ⊆ readable.map Path.components := by
    intro identity hmem
    obtain ⟨path, hpath, rfl⟩ := List.mem_map.mp hmem
    obtain ⟨known, hknown, hequiv⟩ := exists_known_of_mem_found hreads hanswered hpath
    exact List.mem_map.mpr ⟨known, hknown, hequiv⟩
  have hlength := (List.subperm_of_subset hdistinct hsubset).length_le
  simpa using hlength

end Bounds

section Call

variable (provider : Provider σ) (directives : Directives) (limit : Nat) (text : String)
  (opened : OpenFiles) (state : BatchState) (source : σ)

theorem call_identities_nodup :
    (provider.call directives limit text opened state source).run.identities.Nodup := by
  obtain ⟨result, hexpands, _⟩ :=
    call_expands provider directives limit text opened state source
  refine (hexpands.identities_nodup ?_ ?_ ?_).1
  · simp [Run.Accounts, Run.reads]
  · simp [Task.Unread, Run.identities, Run.reads]
  · simp [Run.identities, Run.reads]

theorem call_reads_closed {path : Path}
    (hmem : path ∈ (provider.call directives limit text opened state source).run.reads) :
    ¬ opened.contains path := by
  obtain ⟨result, hexpands, _⟩ :=
    call_expands provider directives limit text opened state source
  rcases hexpands.closed_of_mem_reads hmem with hbefore | hclosed
  · simp [Run.reads] at hbefore
  · exact hclosed

variable {provider} {readable : List Path}

theorem call_length_reads_le (hreads : provider.ReadsAmong readable) :
    (provider.call directives limit text opened state source).run.reads.length ≤
      readable.length + 1 := by
  obtain ⟨result, hexpands, _⟩ :=
    call_expands provider directives limit text opened state source
  have hfound := length_found_le hreads
    (call_answeredBy provider directives limit text opened state source)
    (call_identities_nodup provider directives limit text opened state source)
  have hasked := (hexpands.length_reads_le (by simp [Run.reads, Run.found, Run.events])).1
  omega

theorem call_depth_le (hreads : provider.ReadsAmong readable) {path : Path} {depth : Nat}
    {answer : Except String String}
    (hmem : Event.read path depth answer ∈
      (provider.call directives limit text opened state source).run.events) :
    depth ≤ opened.size + (readable.length + 1) := by
  obtain ⟨result, hexpands, _⟩ :=
    call_expands provider directives limit text opened state source
  have hlength := call_length_reads_le directives limit text opened state source hreads
  have hnested := hexpands.nestedBelow (Nat.le_add_right _ _)
    (by simp [Run.NestedBelow, Run.events]) path depth answer hmem
  omega

end Call

/-- No call asks for a file twice, or for a file that was open before it. If no more than the given
files are readable, a call asks for at most one more than there are of them, nests its files no
deeper than that, and always ends in a text or in a failure, the same under every larger limit. -/
theorem call_reads_once (provider : Provider σ) (directives : Directives) (text : String)
    (opened : OpenFiles) (state : BatchState) (source : σ) :
    let call := fun limit => provider.call directives limit text opened state source
    (∀ limit, (call limit).run.identities.Nodup) ∧
    (∀ limit, ∀ path ∈ (call limit).run.reads, ¬ opened.contains path) ∧
    ∀ readable, provider.ReadsAmong readable →
      (∀ limit, (call limit).run.reads.length ≤ readable.length + 1) ∧
      (∀ limit path depth answer, Event.read path depth answer ∈ (call limit).run.events →
        depth ≤ opened.size + (readable.length + 1)) ∧
      ∃ settled : Outcome σ Failure, ∀ limit, readable.length < limit →
        call limit = settled.toLimited := by
  intro call
  refine ⟨?_, ?_, ?_⟩
  · intro limit
    exact call_identities_nodup provider directives limit text opened state source
  · intro limit path hmem
    exact call_reads_closed provider directives limit text opened state source hmem
  · intro readable hreads
    refine ⟨?_, ?_, exists_settled_call hreads directives text opened state source⟩
    · intro limit
      exact call_length_reads_le directives limit text opened state source hreads
    · intro limit path depth answer hmem
      exact call_depth_le directives limit text opened state source hreads hmem

/-- A library in which the file that is asked for last is missing. -/
def missingImport : Library :=
  .ofFiles [("main", "#import \"a\"\n#import \"b\"\n"), ("a", "int a;\n"),
    ("b", "#import \"a\"\n#import \"gone\"\n")]

theorem call_reads_once_missingImport :
    missingImport.provider.ReadsAmong missingImport.files.keys ∧
    missingImport.files.keys.length < 4 ∧
    (missingImport.provider.call {} 4 "main" {} {} ()).run.reads.map Path.text =
      ["main", "a", "b", "gone"] ∧
    (missingImport.provider.call {} 4 "main" {} {} ()).run.reads.length ≤
      missingImport.files.keys.length + 1 ∧
    ∃ settled, missingImport.provider.call {} 4 "main" {} {} () = Outcome.toLimited settled := by
  have hreads := missingImport.readsAmong_keys
  have hlimit : missingImport.files.keys.length < 4 := by decide +kernel
  have honce := (call_reads_once missingImport.provider {} "main" {} {} ()).2.2 _ hreads
  obtain ⟨hlength, _, settled, hsettled⟩ := honce
  exact ⟨hreads, hlimit, by decide +kernel, hlength 4, settled, hsettled 4 hlimit⟩

end ShaderInline
