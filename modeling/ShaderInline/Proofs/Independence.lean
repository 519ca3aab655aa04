import ShaderInline.Proofs.Repetition
import ShaderInline.Proofs.Translation

/-!
# Unrelated earlier work

A call in a batch does what it would do from a fresh state if the batch has met none of its files
and none of its guards. The two calls are kept in lock step, and at every step the state of the
batch is the one from which it began, extended by the state of the fresh call.
-/
namespace ShaderInline

variable {σ : Type}

/-- Whether a state is an earlier one, extended by what has come about in a fresh one. -/
structure BatchState.Joins (joined earlier fresh : BatchState) : Prop where
  onceGuards : ∀ guard, joined.onceGuards.contains guard ↔
    earlier.onceGuards.contains guard ∨ fresh.onceGuards.contains guard
  namedGuards : ∀ name, joined.namedGuards.contains name ↔
    earlier.namedGuards.contains name ∨ fresh.namedGuards.contains name
  files : joined.inlined.files = earlier.inlined.files ++ fresh.inlined.files
  digests : ∀ path, joined.inlined.digest? path =
    (earlier.inlined.digest? path).or (fresh.inlined.digest? path)
  remarks : joined.remarks = earlier.remarks ++ fresh.remarks

namespace BatchState.Joins

variable {joined earlier fresh : BatchState} {path : Path} {name : String}

/-- A state joins itself and a fresh one. -/
theorem of_fresh (state : BatchState) : state.Joins state {} where
  onceGuards guard := by simp [GuardSet.contains]
  namedGuards name := by simp [GuardSet.contains]
  files := (List.append_nil _).symm
  digests path := Option.or_none.symm
  remarks := (List.append_nil _).symm

theorem isGuarded (h : joined.Joins earlier fresh) (hnew : ¬ earlier.isGuarded path) :
    joined.isGuarded path ↔ fresh.isGuarded path := by
  rw [BatchState.isGuarded, h.onceGuards]
  exact or_iff_right hnew

theorem contains_namedGuards (h : joined.Joins earlier fresh)
    (hnew : ¬ earlier.namedGuards.contains name) :
    joined.namedGuards.contains name = fresh.namedGuards.contains name := by
  rw [Bool.eq_iff_iff, h.namedGuards]
  exact or_iff_right hnew

theorem contains_inlined (h : joined.Joins earlier fresh) (hnew : ¬ earlier.inlined.contains path) :
    joined.inlined.contains path = fresh.inlined.contains path := by
  rw [InlinedFiles.contains_eq_isSome_digest?, Bool.not_eq_true] at hnew
  rw [InlinedFiles.contains_eq_isSome_digest?, InlinedFiles.contains_eq_isSome_digest?, h.digests,
    Option.isSome_or, hnew, Bool.false_or]

end BatchState.Joins

/-- Whether a run in a batch that began from `state` has come as far as one from a fresh state. -/
structure Run.Keeps (state : BatchState) (run shared : Run σ) : Prop where
  history : shared.history = run.history
  joins : shared.state.Joins state run.state

namespace Run.Keeps

variable {provider : Provider σ} {state : BatchState} {run shared : Run σ} {path : Path}

theorem noted (h : run.Keeps state shared) (event : Event) :
    (run.noted event).Keeps state (shared.noted event) :=
  ⟨congrArg (·.push event) h.history, h.joins⟩

theorem asked (h : run.Keeps state shared) (hsteady : provider.IsSteady) (path : Path)
    (depth : Nat) :
    (run.asked provider path depth).Keeps state (shared.asked provider path depth) := by
  have hanswer := hsteady.read path shared.source run.source
  refine ⟨?_, h.joins⟩
  simp only [Run.asked, Run.noted, h.history, hanswer]

theorem remarked (h : run.Keeps state shared) (remark : Remark) :
    (run.remarked remark).Keeps state (shared.remarked remark) where
  history := congrArg (·.push (.remarked remark)) h.history
  joins := { h.joins with remarks := by simp [Run.remarked, h.joins.remarks] }

theorem consulted (h : run.Keeps state shared) (hsteady : provider.IsSteady) (file : Path)
    (line : Nat) (importText : String) (trailing : Option String) :
    (run.consulted provider file line importText trailing).Keeps state
      (shared.consulted provider file line importText trailing) := by
  have hlookedUp : ∀ {run shared : Run σ}, run.Keeps state shared →
      (run.lookedUp provider importText file line).Keeps state
        (shared.lookedUp provider importText file line) := by
    intro run shared h
    have hanswer := hsteady.resolve importText file shared.source run.source
    refine ⟨?_, h.joins⟩
    simp only [Run.lookedUp, Run.noted, h.history, hanswer]
  cases trailing with
  | none => exact hlookedUp h
  | some trailing => exact hlookedUp (h.remarked _)

theorem guardedOnce (h : run.Keeps state shared) (path : Path) :
    (run.guardedOnce path).Keeps state (shared.guardedOnce path) where
  history := h.history
  joins := { h.joins with
    onceGuards := fun guard => by simp [Run.guardedOnce, h.joins.onceGuards, or_assoc] }

theorem begun (h : run.Keeps state shared) (directives : Directives) (path : Path)
    (content : String) :
    (run.begun directives path content).Keeps state (shared.begun directives path content) := by
  unfold Run.begun
  split
  · exact h.guardedOnce path
  · exact h

theorem defined (h : run.Keeps state shared) (name : String) :
    (run.defined name).Keeps state (shared.defined name) where
  history := h.history
  joins := { h.joins with
    namedGuards := fun name => by simp [Run.defined, h.joins.namedGuards, or_assoc] }

/-- A file that was not recorded before comes behind the others in both. -/
theorem completed (h : run.Keeps state shared) (hnew : ¬ state.inlined.contains path)
    (expanded : String) :
    (run.completed path expanded).Keeps state (shared.completed path expanded) where
  history := h.history
  joins := { h.joins with
    files := by
      have hknown := h.joins.contains_inlined hnew
      simp only [Run.completed, InlinedFiles.files_add, hknown, h.joins.files]
      split
      · rfl
      · exact List.append_assoc _ _ _
    digests := fun other => by
      simp only [Run.completed, InlinedFiles.digest?_add, h.joins.digests other]
      by_cases hsame : path ≈ other
      · have hnone : state.inlined.digest? other = none := by
          rw [state.inlined.contains_congr hsame] at hnew
          simpa [InlinedFiles.contains_eq_isSome_digest?] using hnew
        rw [hnone, if_pos hsame, if_pos hsame]
        rfl
      · rw [if_neg hsame, if_neg hsame] }

end Run.Keeps

section Call

variable {provider : Provider σ} {directives : Directives} {state : BatchState}

/-- What keeps a call apart from the earlier work of a batch. -/
theorem simulates_unrelated {final : Run σ} (hsteady : provider.IsSteady)
    (honce : ∀ path ∈ final.reads, ¬ state.isGuarded path)
    (hinlined : ∀ path ∈ final.targets, ¬ state.inlined.contains path)
    (hnames : ∀ name, final.state.namedGuards.contains name →
      ¬ state.namedGuards.contains name) :
    ({} : Translation).Simulates provider directives provider directives final (fun _ => True)
      (Run.Keeps state) where
  line line := .of_trim rfl directives
  same _ _ := Iff.rfl
  apart _ file hmem := by cases hmem
  unreadable := by
    intro run shared path cause depth hkeeps _ _ hread
    rw [List.length_nil, Nat.zero_add]
    have hanswer := hsteady.read path shared.source run.source
    exact ⟨hanswer.trans hread, hkeeps.asked hsteady path depth⟩
  read := by
    intro run shared path content depth hkeeps _ hfinal hread
    have hmem : path ∈ final.reads := hfinal.reads_prefix.subset (by simp)
    refine ⟨content, (hsteady.read path shared.source run.source).trans hread, by simp, ?_, ?_, ?_⟩
    · exact and_congr_right fun _ => hkeeps.joins.isGuarded (honce path hmem)
    · rw [List.length_nil, Nat.zero_add]
      exact (hkeeps.asked hsteady path depth).noted _
    · rw [List.length_nil, Nat.zero_add]
      exact (hkeeps.asked hsteady path depth).begun directives path content
  unresolved := by
    intro run shared file number line importText trailing trailing' cause hkeeps _ _ _ hline hline'
      hresolve
    cases hline.symm.trans hline'
    exact ⟨(hsteady.resolve importText file shared.source run.source).trans hresolve, rfl,
      hkeeps.consulted hsteady file number importText trailing⟩
  resolved := by
    intro run shared file number line importText trailing trailing' path hkeeps _ hfinal _ hline
      hline' hresolve
    cases hline.symm.trans hline'
    have hmem := Run.mem_targets_of_resolved
      (hfinal.events_prefix.subset (Run.resolved_mem_consulted hresolve number trailing))
    exact ⟨(hsteady.resolve importText file shared.source run.source).trans hresolve, trivial,
      hkeeps.joins.contains_inlined (hinlined path hmem),
      hkeeps.consulted hsteady file number importText trailing⟩
  completed := by
    intro run shared importText file number path tree _ hkeeps _ hmem
    rw [Translation.tree_id]
    exact hkeeps.completed (hinlined path (Run.mem_targets_of_resolved hmem)) _
  names hkeeps hname := hkeeps.joins.contains_namedGuards (hnames _ hname)
  defined name hkeeps := hkeeps.defined name
  skippedGuard name file number hkeeps := hkeeps.noted _

/-- If a batch has met no once guard of a file that a call from a fresh state reads, has inlined no
file that an import line of that call leads to, and has opened no guard that the call opens, then
the call does the same in the batch: it asks the same questions in the same order and comes to the
same text or failure. What it leaves is the state of the batch, extended by that of the fresh
call. -/
theorem call_of_unrelated (limit : Nat) (text : String) (source later : σ)
    (hsteady : provider.IsSteady)
    (honce : ∀ path ∈ (provider.call directives limit text {} {} source).run.reads,
      ¬ state.isGuarded path)
    (hinlined : ∀ path ∈ (provider.call directives limit text {} {} source).run.targets,
      ¬ state.inlined.contains path)
    (hnames : ∀ name,
      (provider.call directives limit text {} {} source).state.namedGuards.contains name →
        ¬ state.namedGuards.contains name) :
    let fresh := provider.call directives limit text {} {} source
    let shared := provider.call directives limit text {} state later
    shared.result = fresh.result ∧ shared.run.reads = fresh.run.reads ∧
      shared.run.events = fresh.run.events ∧ shared.state.Joins state fresh.state := by
  intro fresh shared
  have hkeeps : Run.Keeps state { source, state := {} } { source := later, state } :=
    ⟨rfl, .of_fresh state⟩
  obtain ⟨ended, hfresh, hshared, _, hend⟩ := call_translate
    (simulates_unrelated hsteady honce hinlined hnames) rfl (by simp) trivial hkeeps
  have hevents : shared.run.events = fresh.run.events := congrArg Array.toList hend.history
  refine ⟨?_, congrArg (List.filterMap Event.readPath?) hevents, hevents, hend.joins⟩
  rw [Translation.result_id] at hshared
  exact hshared.trans hfresh.symm

end Call

/-- A library of two files that have nothing in common, each with an import and a guard of its
own. -/
def strangers : Library :=
  .ofFiles [("first", "#import \"lib\"\n#ifndef A\n#define A\n#endif\n"),
    ("lib", "#pragma once\nint l;\n"),
    ("second", "#import \"part\" rest\n#ifndef B\n#define B\n#endif\n"),
    ("part", "#pragma once\nint p;\n")]

theorem call_of_unrelated_strangers :
    let provider := strangers.provider
    let state := (provider.call {} 3 "first" {} {} ()).state
    let fresh := provider.call {} 3 "second" {} {} ()
    let shared := provider.call {} 3 "second" {} state ()
    fresh.run.reads = [⟨"second"⟩, ⟨"part"⟩] ∧ shared.result = fresh.result ∧
    shared.run.reads = fresh.run.reads ∧ shared.state.Joins state fresh.state ∧
    shared.state.inlined.files = [⟨"lib"⟩, ⟨"part"⟩] := by
  intro provider state fresh shared
  have honce : ∀ path ∈ fresh.run.reads, ¬ state.isGuarded path := by decide +kernel
  have hopened : ∀ name ∈ fresh.state.namedGuards.members,
      ¬ state.namedGuards.contains name := by decide +kernel
  have hinlined : ∀ path ∈ fresh.run.targets, ¬ state.inlined.contains path := by decide +kernel
  have hnames : ∀ name, fresh.state.namedGuards.contains name →
      ¬ state.namedGuards.contains name :=
    fun name hname => hopened name (GuardSet.contains_iff.mp hname)
  obtain ⟨hresult, hreads, _, hjoins⟩ :=
    call_of_unrelated 3 "second" () () strangers.isSteady honce hinlined hnames
  exact ⟨by decide +kernel, hresult, hreads, hjoins, by decide +kernel⟩

end ShaderInline
