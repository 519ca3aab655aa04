import ShaderInline.Proofs.LineFates
import ShaderInline.Proofs.Batches

/-!
# Guards are opened once

A line that opens a named guard is copied only while the guard is unknown, and the guard is known
from then on. So the names of the guards that a text opens are exactly those that were added to the
set of guards in the course of the call, in the same order. A call that fails may add names as well,
but never takes one away, and so no name is opened twice in all the texts of a batch.
-/
namespace ShaderInline

variable {σ : Type}

/-- The name of the guard that a line of a text opens. -/
def Text.guardAt? (text : String) : Nat → Option String
  | 0 => none
  | index + 1 =>
    match (lines text).drop index with
    | line :: following => openedGuard? line following
    | [] => none

theorem Text.guardAt?_of_eq_append {text line : String} {before following : List String}
    (h : lines text = before ++ line :: following) :
    guardAt? text (before.length + 1) = openedGuard? line following := by
  simp [guardAt?, h]

/-- The content that a run has read of a file. -/
def Run.content? (run : Run σ) (file : Path) : Option String :=
  run.events.findSome? fun event =>
    match event with
    | .read path _ (.ok content) => if path = file then some content else none
    | _ => none

/-- The name of the guard that a line of output opens in the file that it was copied from. -/
def Run.guardAt? (run : Run σ) : Origin → Option String
  | .source file number => run.content? file >>= fun content => Text.guardAt? content number
  | .generated => none

/-- The names of the guards that the lines of a text open, one for every such line. A call that
fails has no text. -/
def Outcome.openedGuards {ε : Type} (outcome : Outcome σ ε) : List String :=
  match outcome.result with
  | .ok flat => flat.origins.filterMap outcome.run.guardAt?
  | .error _ => []

/-- The outcomes of the calls of a batch. -/
def Provider.outcomes (provider : Provider σ) (directives : Directives) :
    BatchState → List (Request σ) → List (Outcome σ Stop)
  | _, [] => []
  | state, request :: requests =>
    provider.answer directives state request ::
      outcomes provider directives (provider.answer directives state request).state requests

/-- The names of the guards that the copied lines open, in the order of the output. -/
def ExpansionTree.openedGuards : ExpansionTree → List String
  | done | alreadyIncluded => []
  | copied _ opened rest => opened.toList ++ openedGuards rest
  | skipped _ rest | alreadyImported _ _ rest => openedGuards rest
  | inlined _ _ content rest => openedGuards content ++ openedGuards rest

section Lines

variable {run : Run σ} {file : Path} {number : Nat} {line : String} {lines : List String}

theorem Run.HasRead.content? {content : String} (h : run.HasRead file content)
    (hnodup : run.identities.Nodup) : run.content? file = some content := by
  cases hfound : run.content? file with
  | none =>
    obtain ⟨depth, hmem⟩ := h
    have hnone := List.findSome?_eq_none_iff.mp hfound _ hmem
    simp at hnone
  | some found =>
    obtain ⟨event, hmem, hevent⟩ := List.exists_of_findSome?_eq_some hfound
    split at hevent
    case h_1 path depth other =>
      split at hevent
      case isTrue hpath =>
        cases hevent
        rw [h.unique ⟨depth, hpath ▸ hmem⟩ hnodup]
      case isFalse => cases hevent
    case h_2 => cases hevent

/-- A line that is walked opens the guard that the walk takes it to open. -/
theorem Run.Walks.guardAt? (h : run.Walks file number (line :: lines))
    (hnodup : run.identities.Nodup) :
    run.guardAt? (.source file number) = openedGuard? line lines := by
  obtain ⟨content, before, hread, hlines, rfl⟩ := h
  rw [Run.guardAt?, hread.content? hnodup]
  exact Text.guardAt?_of_eq_append hlines

end Lines

namespace Run

/-- The names of the guards that lines of output open. -/
def openedGuards (run : Run σ) (lines : List OutputLine) : List String :=
  (lines.map (·.origin)).filterMap run.guardAt?

theorem openedGuards_append (run : Run σ) (front rest : List OutputLine) :
    run.openedGuards (front ++ rest) = run.openedGuards front ++ run.openedGuards rest := by
  simp [openedGuards]

theorem openedGuards_generated (run : Run σ) (text : String) :
    run.openedGuards (OutputLine.generated text) = [] := by
  simp [openedGuards, OutputLine.generated, guardAt?]

theorem openedGuards_closed (run : Run σ) (lines : List OutputLine) :
    run.openedGuards (OutputLine.closed lines) = run.openedGuards lines := by
  simp [openedGuards]

theorem openedGuards_copied (run : Run σ) (text : String) (file : Path) (number : Nat)
    (lines : List OutputLine) :
    run.openedGuards (⟨text, .source file number⟩ :: lines) =
      (run.guardAt? (.source file number)).toList ++ run.openedGuards lines := by
  cases h : run.guardAt? (.source file number) <;> simp [openedGuards, h]

end Run

theorem GuardSet.members_insert {α : Type} [DecidableEq α] {s : GuardSet α} {guard : α}
    (h : ¬ s.contains guard) : (s.insert guard).members = s.members ++ [guard] := by
  rw [contains_iff] at h
  exact if_neg h

section Rules

variable {provider : Provider σ} {directives : Directives} {opened : OpenFiles} {task : Task}
  {run after final : Run σ} {tree : ExpansionTree}

/-- A line that brings in no file adds the guard that it opens. -/
theorem Passes.members_namedGuards {file : Path} {number skip left : Nat} {line : String}
    {lines : List String} {node : ExpansionTree → ExpansionTree}
    (h : Passes provider directives opened file number line lines skip run node left after) :
    ∃ own, after.state.namedGuards.members = run.state.namedGuards.members ++ own ∧
      ∀ rest, (node rest).openedGuards = own ++ rest.openedGuards := by
  cases h with
  | inBlock | plain | skippedBlock => exact ⟨[], by simp [Run.noted], fun _ => rfl⟩
  | alreadyImported => exact ⟨[], by simp [Run.namedGuards_consulted], fun _ => rfl⟩
  | opening _ _ hfresh => exact ⟨[_], GuardSet.members_insert hfresh, fun _ => rfl⟩

/-- The guards that a task adds are those that its tree opens. -/
theorem Yields.members_namedGuards (h : Yields provider directives opened task run tree after) :
    after.state.namedGuards.members = run.state.namedGuards.members ++ tree.openedGuards := by
  induction h with
  | alreadyIncluded => simp [ExpansionTree.openedGuards, Run.asked, Run.noted]
  | entered _ _ _ _ ih =>
    rw [Run.namedGuards_begun] at ih
    exact ih
  | done => simp [ExpansionTree.openedGuards]
  | passed _ hline _ ih =>
    obtain ⟨own, hmembers, htree⟩ := hline.members_namedGuards
    rw [ih, hmembers, htree, List.append_assoc]
  | @inlined _ _ _ _ _ _ _ path _ content middle _ _ _ _ _ _ _ _ ihchild ihrest =>
    have hcompleted : (middle.completed path (content.flatten path).text).state.namedGuards =
        middle.state.namedGuards := rfl
    rw [ihrest, hcompleted, ihchild, Run.namedGuards_consulted, List.append_assoc]
    rfl

/-- A line that brings in no file opens the guard that is added for it. -/
theorem Passes.openedGuards {file : Path} {number skip left : Nat} {line : String}
    {lines : List String} {node : ExpansionTree → ExpansionTree} {rest : ExpansionTree}
    (h : Passes provider directives opened file number line lines skip run node left after)
    (hat : final.Walks file number (line :: lines)) (hnodup : final.identities.Nodup)
    (hrest : final.openedGuards (rest.output file (number + 1)) = rest.openedGuards) :
    final.openedGuards ((node rest).output file number) = (node rest).openedGuards := by
  have hopens := hat.guardAt? hnodup
  cases h with
  | inBlock | skippedBlock => exact hrest
  | alreadyImported =>
    rw [ExpansionTree.output, ExpansionTree.importedMarker, Run.openedGuards_append,
      Run.openedGuards_generated, hrest]
    rfl
  | plain _ hguard | opening _ hguard _ =>
    rw [hguard] at hopens
    rw [ExpansionTree.output, Run.openedGuards_copied, hopens, hrest]
    rfl

/-- The copied lines open the guards of the tree, as the files were read. -/
theorem Yields.openedGuards (h : Yields provider directives opened task run tree after)
    (hfinal : after.events ⊆ final.events) (hnodup : final.identities.Nodup) :
    final.openedGuards (task.output tree) = tree.openedGuards := by
  induction h with
  | alreadyIncluded => exact Run.openedGuards_generated _ _
  | entered _ _ _ _ ih => exact ih hfinal
  | done => rfl
  | passed hat hline hrest ih =>
    have hmiddle := List.Subset.trans hrest.events_prefix.subset hfinal
    have hrun := List.Subset.trans hline.steps.events_prefix.subset hmiddle
    exact hline.openedGuards (hat.mono hrun) hnodup (ih hfinal)
  | @inlined _ file number _ _ importText _ path _ content _ rest _ _ _ _ _ _ hrest ihchild
      ihrest =>
    have hmiddle := List.Subset.trans hrest.events_prefix.subset hfinal
    have hcontent : final.openedGuards (content.output path 1) = content.openedGuards :=
      ihchild hmiddle
    have hbehind : final.openedGuards (rest.output file (number + 1)) = rest.openedGuards :=
      ihrest hfinal
    rw [Task.output, ExpansionTree.output, ExpansionTree.beginMarker, ExpansionTree.endMarker]
    simp only [Run.openedGuards_append, Run.openedGuards_generated, Run.openedGuards_closed,
      hcontent, hbehind, List.nil_append, List.append_nil]
    rfl

end Rules

section Calls

variable {provider : Provider σ} {directives : Directives} {limit : Nat} {text : String}
  {opened : OpenFiles} {state : BatchState} {source : σ}

/-- The guards that a successful call adds are those that its text opens, in the same order. -/
theorem call_members_namedGuards {flat : FlatText}
    (h : (provider.call directives limit text opened state source).result = .ok flat) :
    (provider.call directives limit text opened state source).state.namedGuards.members =
      state.namedGuards.members ++
        (provider.call directives limit text opened state source).openedGuards := by
  obtain ⟨tree, _, rfl, hyields⟩ := call_yields h
  have hopened := hyields.openedGuards (List.Subset.refl _)
    (call_identities_nodup provider directives limit text opened state source)
  rw [Outcome.openedGuards, h]
  exact hyields.members_namedGuards.trans (congrArg _ hopened.symm)

/-- Whatever a call opens, the state knows nothing of it before and all of it afterwards. -/
theorem nodup_append_openedGuards (request : Request σ) {opening : List String}
    (hnodup : opening.Nodup) (hknown : ∀ name ∈ opening, state.namedGuards.contains name) :
    let call := provider.answer directives state request
    (opening ++ call.openedGuards).Nodup ∧
      ∀ name ∈ opening ++ call.openedGuards, call.state.namedGuards.contains name := by
  intro call
  have hextends := (call_extends provider directives state request.limit request.text {}
    request.source).namedGuards
  cases hresult : call.result with
  | error stop =>
    have hnone : call.openedGuards = [] := by rw [Outcome.openedGuards, hresult]
    rw [hnone, List.append_nil]
    exact ⟨hnodup, fun name hmem => hextends name (hknown name hmem)⟩
  | ok flat =>
    have hmembers : call.state.namedGuards.members = _ := call_members_namedGuards hresult
    have hmembersNodup := hmembers ▸ call.state.namedGuards.nodup
    obtain ⟨_, hown, hapart⟩ := List.nodup_append.mp hmembersNodup
    refine ⟨List.nodup_append.mpr ⟨hnodup, hown, fun name hmem other hother => ?_⟩, ?_⟩
    · exact hapart name (GuardSet.contains_iff.mp (hknown name hmem)) other hother
    · intro name hmem
      rcases List.mem_append.mp hmem with hmem | hmem
      · exact hextends name (hknown name hmem)
      · rw [GuardSet.contains_iff, hmembers]
        exact List.mem_append_right _ hmem

/-- No guard is opened twice in a batch, and none that was opened before it. -/
theorem nodup_append_flatMap_openedGuards (provider : Provider σ) (directives : Directives)
    (requests : List (Request σ)) {opening : List String}
    (hnodup : opening.Nodup) (hknown : ∀ name ∈ opening, state.namedGuards.contains name) :
    (opening ++ (provider.outcomes directives state requests).flatMap
      Outcome.openedGuards).Nodup := by
  induction requests generalizing state opening with
  | nil => simpa [Provider.outcomes] using hnodup
  | cons request requests ih =>
    obtain ⟨hnow, hlater⟩ := nodup_append_openedGuards request hnodup hknown
    rw [Provider.outcomes, List.flatMap_cons, ← List.append_assoc]
    exact ih hnow hlater

end Calls

/-- In the texts of a batch that begins from a fresh state no named guard is opened twice, whether
or not some of its calls fail. In the text of a successful call from a fresh state every guard that
is met in the end is opened once, and no other guard is opened. -/
theorem batch_opens_guards_once (provider : Provider σ) (directives : Directives) :
    (∀ requests name, ((provider.outcomes directives {} requests).flatMap
      Outcome.openedGuards).count name ≤ 1) ∧
    ∀ limit text opened source flat,
      let call := provider.call directives limit text opened {} source
      call.result = .ok flat →
        (∀ name, call.openedGuards.count name =
          if call.state.namedGuards.contains name then 1 else 0) ∧
        call.state.namedGuards.size = call.openedGuards.length := by
  constructor
  · intro requests name
    have hnodup : ([] ++ (provider.outcomes directives {} requests).flatMap
        Outcome.openedGuards).Nodup :=
      nodup_append_flatMap_openedGuards provider directives requests List.nodup_nil (by simp)
    exact List.nodup_iff_count_le_one.mp hnodup name
  · intro limit text opened source flat call hresult
    have hmembers : call.state.namedGuards.members = call.openedGuards :=
      call_members_namedGuards hresult
    refine ⟨fun name => ?_, congrArg List.length hmembers⟩
    have hnodup := hmembers ▸ call.state.namedGuards.nodup
    rw [hnodup.count, GuardSet.contains, hmembers]
    simp

/-- A library in which a guard is first opened in an imported file, and another one in a file that
fails. -/
def guardsInTurn : Library :=
  .ofFiles [("main", "#import \"lib\"\n#ifndef A\n#define A\nint m;\n#endif\n"),
    ("lib", "#ifndef A\n#define A\n#ifndef B\n#define B\n#endif\n#endif\n"),
    ("broken", "#ifndef C\n#define C\n#endif\n#import\n"),
    ("late", "#ifndef C\n#define C\n#endif\n#ifndef D\n#define D\n#endif\n")]

theorem batch_opens_guards_once_guardsInTurn :
    let outcomes := guardsInTurn.provider.outcomes {} {} [⟨"main", 2, ()⟩, ⟨"broken", 2, ()⟩,
      ⟨"late", 2, ()⟩]
    let call := guardsInTurn.provider.call {} 2 "main" {} {} ()
    outcomes.map (·.result.isOk) = [true, false, true] ∧
    outcomes.flatMap Outcome.openedGuards = ["A", "B", "D"] ∧
    (outcomes.flatMap Outcome.openedGuards).count "A" ≤ 1 ∧
    call.state.namedGuards.members = ["A", "B"] ∧
    call.openedGuards.count "A" = (if call.state.namedGuards.contains "A" then 1 else 0) ∧
    call.state.namedGuards.size = call.openedGuards.length := by
  intro outcomes call
  obtain ⟨hbatch, hcall⟩ := batch_opens_guards_once guardsInTurn.provider {}
  have hresult : call.result = .ok (call.result.toOption.getD {}) := by decide +kernel
  obtain ⟨hcount, hsize⟩ := hcall 2 "main" {} () _ hresult
  exact ⟨by decide +kernel, by decide +kernel, hbatch _ "A", by decide +kernel, hcount "A", hsize⟩

end ShaderInline
