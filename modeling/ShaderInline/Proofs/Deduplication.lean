import ShaderInline.Proofs.Batches
import ShaderInline.Proofs.Insertions

/-!
# Deduplication in a batch

A text omits a file when it only has a marker for it, because an import refers to a file that was
inlined before or because the file carries a once guard that was met before. What is omitted has
been delivered by the text of the same call or of an earlier one, unless an earlier call has read the
file and then failed. A call that fails has no text, and what it has met stays in the state.
-/
namespace ShaderInline

variable {σ : Type}

namespace ExpansionTree

/-- The files that are imported, each with what it comes to unless it is only referred to. -/
def imports : ExpansionTree → List (Path × Option ExpansionTree)
  | done | alreadyIncluded => []
  | copied _ _ rest | skipped _ rest => imports rest
  | alreadyImported _ path rest => (path, none) :: imports rest
  | inlined _ path content rest => imports content ++ (path, some content) :: imports rest

/-- The imports are those of the insertions, wherever these stand. -/
theorem map_insertions (tree : ExpansionTree) (file : Path) (number start : Nat) :
    (tree.insertions file number start).map (fun insertion => (insertion.file, insertion.content)) =
      tree.imports := by
  induction tree generalizing file number start with
  | done | alreadyIncluded => rfl
  | copied line opened rest ih => exact ih _ _ _
  | skipped line rest ih => exact ih _ _ _
  | alreadyImported importText path rest ih => simp [insertions, imports, ih]
  | inlined importText path content rest ihcontent ih =>
    simp [insertions, imports, ihcontent, ih]

/-- The file at the top and those of the insertions, each with what stands for it in the text. -/
def parts (tree : ExpansionTree) (top : Path) : List (Path × Option ExpansionTree) :=
  (top, some tree) ::
    (tree.insertions top 1 0).map fun insertion => (insertion.file, insertion.content)

end ExpansionTree

/-- Whether some part is the expansion of a file, and more than the marker of its once guard. -/
def DeliveredIn (parts : List (Path × Option ExpansionTree)) (file : Path) : Prop :=
  ∃ path content, (path, some content) ∈ parts ∧ path ≈ file ∧ content ≠ .alreadyIncluded

/-- Whether some part is a marker in the place of a file. -/
def OmittedIn (parts : List (Path × Option ExpansionTree)) (file : Path) : Prop :=
  ∃ path content, (path, content) ∈ parts ∧ path ≈ file ∧
    (content = none ∨ content = some .alreadyIncluded)

theorem DeliveredIn.mono {parts more : List (Path × Option ExpansionTree)} {file : Path}
    (h : DeliveredIn parts file) (hsub : parts ⊆ more) : DeliveredIn more file := by
  obtain ⟨path, content, hmem, hfile⟩ := h
  exact ⟨path, content, hsub hmem, hfile⟩

theorem omittedIn_append {front back : List (Path × Option ExpansionTree)} {file : Path} :
    OmittedIn (front ++ back) file ↔ OmittedIn front file ∨ OmittedIn back file := by
  simp only [OmittedIn, List.mem_append, or_and_right, exists_or]

/-- The parts that a task adds to a text. -/
def Task.parts (tree : ExpansionTree) : Task → List (Path × Option ExpansionTree)
  | .file path => tree.imports ++ [(path, some tree)]
  | .lines _ _ _ _ => tree.imports

theorem ExpansionTree.imports_inlined (importText : String) (path : Path)
    (content rest : ExpansionTree) :
    (inlined importText path content rest).imports =
      (Task.file path).parts content ++ rest.imports := by
  simp [imports, Task.parts]

theorem ExpansionTree.mem_parts_iff {tree : ExpansionTree} {top : Path}
    {part : Path × Option ExpansionTree} :
    part ∈ tree.parts top ↔ part ∈ (Task.file top).parts tree := by
  rw [parts, map_insertions, Task.parts, List.mem_cons, List.mem_append, List.mem_singleton,
    or_comm]

/-- Whether a file has been inlined or carries a once guard that was met. -/
def BatchState.Knows (state : BatchState) (file : Path) : Prop :=
  state.inlined.contains file ∨ state.isGuarded file

theorem BatchState.isGuarded_congr (state : BatchState) {path other : Path} (h : path ≈ other) :
    state.isGuarded path = state.isGuarded other := by
  rw [isGuarded, isGuarded, Path.equiv_iff.mp h]

section Run

variable {provider : Provider σ} {directives : Directives} {run after : Run σ}
  {file path other : Path}

theorem Run.knows_begun {content : String}
    (h : (run.begun directives path content).state.Knows file) :
    run.state.Knows file ∨ path ≈ file := by
  unfold Run.begun at h
  split at h
  case isTrue =>
    rcases h with hinlined | hguarded
    · exact .inl (.inl hinlined)
    · have hmet : run.state.isGuarded file ∨ file.components = path.components := by
        simpa [Run.guardedOnce, BatchState.isGuarded] using hguarded
      exact hmet.imp .inr fun hsame => Path.equiv_iff.mpr hsame.symm
  case isFalse => exact .inl h

theorem Run.knows_completed {expanded : String}
    (h : (run.completed path expanded).state.Knows file) : run.state.Knows file ∨ path ≈ file := by
  rcases h with hinlined | hguarded
  · rw [Run.completed, InlinedFiles.contains_add, Bool.or_eq_true, decide_eq_true_eq] at hinlined
    exact hinlined.symm.imp_left .inl
  · exact .inl (.inr hguarded)

theorem Run.knows_consulted {importText : String} {number : Nat} {trailing : Option String} :
    (run.consulted provider path number importText trailing).state.Knows file ↔
      run.state.Knows file := by
  cases trailing <;> rfl

end Run

section Yields

variable {provider : Provider σ} {directives : Directives} {opened : OpenFiles} {task : Task}
  {run after : Run σ} {tree : ExpansionTree} {file path : Path}

theorem Passes.knows {importer : Path} {number skip left : Nat} {line : String}
    {lines : List String} {node : ExpansionTree → ExpansionTree}
    (h : Passes provider directives opened importer number line lines skip run node left after)
    (hknown : after.state.Knows file) : run.state.Knows file := by
  cases h with
  | inBlock | plain | opening | skippedBlock => exact hknown
  | alreadyImported => exact Run.knows_consulted.mp hknown

/-- A line that brings in no file adds at most a marker for a file that is known. -/
theorem Passes.imports {importer : Path} {number skip left : Nat} {line : String}
    {lines : List String} {node : ExpansionTree → ExpansionTree}
    (h : Passes provider directives opened importer number line lines skip run node left after) :
    ∃ own, (∀ rest, (node rest).imports = own ++ rest.imports) ∧
      ∀ file, OmittedIn own file → run.state.Knows file := by
  cases h with
  | inBlock | plain | opening | skippedBlock => exact ⟨[], fun _ => rfl, by simp [OmittedIn]⟩
  | @alreadyImported importText trailing path run _ _ hrefers =>
    refine ⟨[(path, none)], fun _ => rfl, fun file homitted => ?_⟩
    obtain ⟨other, content, hmem, hsame, _⟩ := homitted
    cases List.mem_singleton.mp hmem
    exact .inl ((run.state.inlined.contains_congr hsame).symm.trans hrefers.2)

theorem Yields.isGuarded_of_alreadyIncluded
    (h : Yields provider directives opened (.file path) run .alreadyIncluded after) :
    run.state.isGuarded path := by
  cases h with
  | alreadyIncluded _ _ _ hguarded => exact hguarded
  | entered _ _ _ hwalk => exact absurd rfl hwalk.ne_alreadyIncluded

/-- A file that is known when its lines are walked was known before, unless it is the file itself. -/
theorem delivered_of_begun {content : String} {depth : Nat}
    (h : ((run.asked provider path depth).begun directives path content).state.Knows file ∨
      DeliveredIn tree.imports file) (htree : tree ≠ .alreadyIncluded) :
    run.state.Knows file ∨ DeliveredIn ((Task.file path).parts tree) file := by
  rcases h with hbegun | hdelivered
  · rcases Run.knows_begun hbegun with hbefore | hsame
    · exact .inl hbefore
    · exact .inr ⟨path, tree, by simp [Task.parts], hsame, htree⟩
  · exact .inr (hdelivered.mono (List.subset_append_left _ _))

/-- A file that is known behind an import was known before it or is delivered there. If the import
comes to a marker, the once guard of the imported file was known before. -/
theorem Yields.delivered_of_completed {content rest : ExpansionTree} {middle : Run σ}
    {expanded : String} (h : Yields provider directives opened (.file path) run content middle)
    (hmiddle : middle.state.Knows file →
      run.state.Knows file ∨ DeliveredIn ((Task.file path).parts content) file)
    (hrest : (middle.completed path expanded).state.Knows file ∨ DeliveredIn rest.imports file) :
    run.state.Knows file ∨
      DeliveredIn ((Task.file path).parts content ++ rest.imports) file := by
  rcases hrest with hcompleted | hdelivered
  · rcases Run.knows_completed hcompleted with hbefore | hsame
    · exact (hmiddle hbefore).imp_right fun h => h.mono (List.subset_append_left _ _)
    · -- What was inlined as a marker is not delivered here, but it was guarded before the import.
      by_cases hcontent : content = .alreadyIncluded
      · subst hcontent
        have hguarded := h.isGuarded_of_alreadyIncluded
        exact .inl (.inr ((run.state.isGuarded_congr hsame).symm.trans hguarded))
      · exact .inr ⟨path, content, by simp [Task.parts], hsame, hcontent⟩
  · exact .inr (hdelivered.mono (List.subset_append_right _ _))

/-- What is known after an expansion and was not before has been delivered by it. -/
theorem Yields.knows (h : Yields provider directives opened task run tree after)
    (hknown : after.state.Knows file) :
    run.state.Knows file ∨ DeliveredIn (task.parts tree) file := by
  induction h with
  | alreadyIncluded | done => exact .inl hknown
  | entered _ _ _ hwalk ih => exact delivered_of_begun (ih hknown) hwalk.ne_alreadyIncluded
  | passed _ hline _ ih =>
    obtain ⟨own, himports, _⟩ := hline.imports
    rw [Task.parts, himports]
    exact (ih hknown).imp hline.knows fun h => h.mono (List.subset_append_right _ _)
  | inlined _ _ _ _ hchild _ ihchild ihrest =>
    rw [Task.parts, ExpansionTree.imports_inlined]
    exact (hchild.delivered_of_completed ihchild (ihrest hknown)).imp_left Run.knows_consulted.mp

/-- What an expansion omits was known before or has been delivered by it. -/
theorem Yields.delivers_omitted (h : Yields provider directives opened task run tree after)
    (homitted : OmittedIn (task.parts tree) file) :
    run.state.Knows file ∨ DeliveredIn (task.parts tree) file := by
  induction h with
  | @alreadyIncluded _ path run _ _ _ _ hguarded =>
    obtain ⟨other, content, hmem, hsame, _⟩ := homitted
    cases List.mem_singleton.mp hmem
    exact .inl (.inr ((run.state.isGuarded_congr hsame).symm.trans hguarded))
  | entered _ _ _ hwalk ih =>
    refine delivered_of_begun (ih ?_) hwalk.ne_alreadyIncluded
    rcases omittedIn_append.mp homitted with hnested | ⟨other, content, hmem, _, hmarker⟩
    · exact hnested
    · cases List.mem_singleton.mp hmem
      simp [hwalk.ne_alreadyIncluded] at hmarker
  | done =>
    obtain ⟨other, content, hmem, _⟩ := homitted
    cases hmem
  | passed _ hline _ ih =>
    obtain ⟨own, himports, hown⟩ := hline.imports
    rw [Task.parts, himports] at homitted ⊢
    rcases omittedIn_append.mp homitted with homitted | homitted
    · exact .inl (hown file homitted)
    · exact (ih homitted).imp hline.knows fun h => h.mono (List.subset_append_right _ _)
  | inlined _ _ _ _ hchild _ ihchild ihrest =>
    rw [Task.parts, ExpansionTree.imports_inlined] at homitted ⊢
    rw [← Run.knows_consulted]
    rcases omittedIn_append.mp homitted with homitted | homitted
    · exact (ihchild homitted).imp_right fun h => h.mono (List.subset_append_left _ _)
    · exact hchild.delivered_of_completed hchild.knows (ihrest homitted)

end Yields

/-- Whether every file that is known was known in `state` or has been asked for. -/
def Run.KnowsAsked (run : Run σ) (state : BatchState) : Prop :=
  ∀ file, run.state.Knows file → state.Knows file ∨ file.components ∈ run.identities

namespace Run.KnowsAsked

variable {provider : Provider σ} {state : BatchState} {run after : Run σ} {path : Path}

theorem mono (h : run.KnowsAsked state) (hsub : run.identities ⊆ after.identities)
    (hknows : ∀ file, after.state.Knows file →
      run.state.Knows file ∨ file.components ∈ after.identities) : after.KnowsAsked state := by
  intro file hknown
  rcases hknows file hknown with hbefore | hasked
  · exact (h file hbefore).imp_right fun hmem => hsub hmem
  · exact .inr hasked

theorem asked (h : run.KnowsAsked state) (path : Path) (depth : Nat) :
    (run.asked provider path depth).KnowsAsked state :=
  h.mono (by simp) fun _ hknown => .inl hknown

theorem noted (h : run.KnowsAsked state) (event : Event) : (run.noted event).KnowsAsked state :=
  h.mono (Run.identities_prefix (by simp)).subset fun _ hknown => .inl hknown

theorem consulted (h : run.KnowsAsked state) (importer : Path) (number : Nat)
    (importText : String) (trailing : Option String) :
    (run.consulted provider importer number importText trailing).KnowsAsked state :=
  h.mono (by simp) fun _ hknown => .inl (Run.knows_consulted.mp hknown)

theorem begun (h : run.KnowsAsked state) (hread : path ∈ run.reads) (directives : Directives)
    (content : String) : (run.begun directives path content).KnowsAsked state := by
  have hasked : path.components ∈ (run.begun directives path content).identities := by
    rw [Run.identities_begun]
    exact List.mem_map_of_mem hread
  exact h.mono (by simp) fun _ hknown =>
    (Run.knows_begun hknown).imp_right fun hsame => Path.equiv_iff.mp hsame ▸ hasked

theorem completed (h : run.KnowsAsked state) (hread : path ∈ run.reads) (expanded : String) :
    (run.completed path expanded).KnowsAsked state := by
  have hasked : path.components ∈ run.identities := List.mem_map_of_mem hread
  exact h.mono (List.Subset.refl _) fun _ hknown =>
    (Run.knows_completed hknown).imp_right fun hsame => Path.equiv_iff.mp hsame ▸ hasked

end Run.KnowsAsked

/-- Whatever an expansion makes known it has asked for, whether or not it succeeds. -/
theorem Expands.knowsAsked {provider : Provider σ} {directives : Directives} {limit : Nat}
    {opened : OpenFiles} {task : Task} {run after : Run σ} {result : Except Stop ExpansionTree}
    {state : BatchState} (h : Expands provider directives limit opened task run result after)
    (hrun : run.KnowsAsked state) : after.KnowsAsked state := by
  induction h with
  | tooDeep | circular | malformed | done => exact hrun
  | unreadable => exact hrun.asked _ _
  | alreadyIncluded => exact (hrun.asked _ _).noted _
  | entered _ _ _ _ ih => exact ih ((hrun.asked _ _).begun (by simp) _ _)
  | unresolved => exact hrun.consulted _ _ _ _
  | alreadyImported _ _ _ _ _ ih => exact ih (hrun.consulted _ _ _ _)
  | failedImport _ _ _ _ _ ih => exact ih (hrun.consulted _ _ _ _)
  | inlined _ _ _ _ hchild _ ihchild ihrest =>
    have hread := (hchild.yields rfl).mem_reads
    exact ihrest ((ihchild (hrun.consulted _ _ _ _)).completed hread _)
  | inBlock _ _ ih => exact ih hrun
  | plain _ _ _ _ ih => exact ih hrun
  | opening _ _ _ _ _ ih => exact ih hrun
  | skippedBlock _ _ _ _ _ ih => exact ih (hrun.noted _)

section Batch

variable (provider : Provider σ) (directives : Directives)

/-- What the call of a request comes to. Its text is that of the tree. -/
def Provider.expansion (state : BatchState) (request : Request σ) : Except Stop ExpansionTree :=
  (expandFile provider directives request.limit {} (Path.normal request.text)
    { source := request.source, state }).1

/-- Whether the call of a request has a text with the expansion of a file. -/
def Provider.Delivers (file : Path) (state : BatchState) (request : Request σ) : Prop :=
  ∃ tree, provider.expansion directives state request = .ok tree ∧
    DeliveredIn (tree.parts (Path.normal request.text)) file

/-- Whether the call of a request has a text with a marker in the place of a file. -/
def Provider.Omits (file : Path) (state : BatchState) (request : Request σ) : Prop :=
  ∃ tree, provider.expansion directives state request = .ok tree ∧
    OmittedIn (tree.parts (Path.normal request.text)) file

/-- Whether the call of a request asks for a file and then has no text. -/
def Provider.Loses (file : Path) (state : BatchState) (request : Request σ) : Prop :=
  ¬ (provider.answer directives state request).result.isOk ∧
    file.components ∈ (provider.answer directives state request).run.identities

/-- Whether `P` is true of one of the calls of a batch in the state that it takes over. -/
def Provider.HasCall (state : BatchState) (requests : List (Request σ))
    (P : BatchState → Request σ → Prop) : Prop :=
  ∃ before request after, requests = before ++ request :: after ∧
    P (provider.afterBatch directives state before) request

variable {provider directives} {state : BatchState} {request : Request σ}
  {requests : List (Request σ)} {P : BatchState → Request σ → Prop} {file : Path}

theorem Provider.HasCall.head (h : P state request) :
    provider.HasCall directives state (request :: requests) P :=
  ⟨[], request, requests, rfl, h⟩

theorem Provider.HasCall.tail
    (h : provider.HasCall directives (provider.answer directives state request).state requests P) :
    provider.HasCall directives state (request :: requests) P := by
  obtain ⟨before, earlier, after, rfl, hcall⟩ := h
  exact ⟨request :: before, earlier, after, rfl, hcall⟩

/-- What is known after a call was known before it, or has been delivered by the call or lost. -/
theorem knows_answer (h : (provider.answer directives state request).state.Knows file) :
    state.Knows file ∨ provider.Delivers directives file state request ∨
      provider.Loses directives file state request := by
  have hexpands := expands_expandFile provider directives request.limit {}
    (Path.normal request.text) { source := request.source, state }
  cases hresult : provider.expansion directives state request with
  | ok tree =>
    refine ((hexpands.yields hresult).knows h).imp_right fun hdelivered => .inl ⟨tree, hresult, ?_⟩
    exact hdelivered.mono fun part hmem => ExpansionTree.mem_parts_iff.mpr hmem
  | error stop =>
    have hfailed : (provider.answer directives state request).result = .error stop :=
      congrArg (Except.map _) hresult
    have hstart : ({ source := request.source, state } : Run σ).KnowsAsked state :=
      fun _ hknown => .inl hknown
    refine (hexpands.knowsAsked hstart file h).imp_right fun hasked => .inr ⟨?_, hasked⟩
    rw [hfailed]
    exact Bool.false_ne_true

theorem knows_afterBatch (h : (provider.afterBatch directives state requests).Knows file) :
    state.Knows file ∨
      provider.HasCall directives state requests (provider.Delivers directives file) ∨
      provider.HasCall directives state requests (provider.Loses directives file) := by
  induction requests generalizing state with
  | nil => exact .inl h
  | cons request requests ih =>
    rcases ih h with hknown | hdelivered | hlost
    · rcases knows_answer hknown with hbefore | hdelivered | hlost
      · exact .inl hbefore
      · exact .inr (.inl (.head hdelivered))
      · exact .inr (.inr (.head hlost))
    · exact .inr (.inl hdelivered.tail)
    · exact .inr (.inr hlost.tail)

/-- In a batch from a fresh state, a file that a text only has a marker for is delivered by the same
text or by that of an earlier call, unless an earlier call has asked for the file and failed. -/
theorem call_omits_delivered_or_lost
    (h : provider.Omits directives file (provider.afterBatch directives {} requests) request) :
    provider.Delivers directives file (provider.afterBatch directives {} requests) request ∨
      provider.HasCall directives {} requests (provider.Delivers directives file) ∨
      provider.HasCall directives {} requests (provider.Loses directives file) := by
  obtain ⟨tree, hresult, path, content, hmem, homitted⟩ := h
  have hyields := (expands_expandFile provider directives request.limit {}
    (Path.normal request.text) _).yields hresult
  rcases hyields.delivers_omitted ⟨path, content, ExpansionTree.mem_parts_iff.mp hmem, homitted⟩
    with hknown | hdelivered
  · refine .inr ((knows_afterBatch hknown).resolve_left fun hfresh => ?_)
    simp [BatchState.Knows, BatchState.isGuarded, InlinedFiles.not_contains_empty,
      GuardSet.contains] at hfresh
  · refine .inl ⟨tree, hresult, hdelivered.mono fun part hmem => ?_⟩
    exact ExpansionTree.mem_parts_iff.mpr hmem

/-- A library in which two files import a third one. -/
def sharedImport : Library :=
  .ofFiles [("first", "#import \"lib\"\n"), ("second", "#import \"lib\"\n"), ("lib", "int l;\n")]

theorem call_omits_delivered_or_lost_sharedImport :
    let provider := sharedImport.provider
    let requests : List (Request Unit) := [⟨"first", 3, ()⟩]
    provider.Omits {} ⟨"lib"⟩ (provider.afterBatch {} {} requests) ⟨"second", 3, ()⟩ ∧
    (provider.Delivers {} ⟨"lib"⟩ (provider.afterBatch {} {} requests) ⟨"second", 3, ()⟩ ∨
      provider.HasCall {} {} requests (provider.Delivers {} ⟨"lib"⟩) ∨
      provider.HasCall {} {} requests (provider.Loses {} ⟨"lib"⟩)) := by
  intro provider requests
  have hresult : provider.expansion {} (provider.afterBatch {} {} requests) ⟨"second", 3, ()⟩ =
      .ok (.alreadyImported "lib" ⟨"lib"⟩ .done) := by decide +kernel
  have homits : provider.Omits {} ⟨"lib"⟩ (provider.afterBatch {} {} requests)
      ⟨"second", 3, ()⟩ := by
    refine ⟨_, hresult, ⟨"lib"⟩, none, ?_, Setoid.refl _, .inl rfl⟩
    simp [ExpansionTree.parts, ExpansionTree.insertions]
  exact ⟨homits, call_omits_delivered_or_lost homits⟩

end Batch

/-- Whether in a batch from `state` every file that a text only has a marker for is delivered by the
same text or by that of an earlier call. -/
def Provider.KeepsFiles (provider : Provider σ) (directives : Directives) (state : BatchState) :
    Prop :=
  ∀ (file : Path) (requests : List (Request σ)) (request : Request σ),
    provider.Omits directives file (provider.afterBatch directives state requests) request →
      provider.Delivers directives file (provider.afterBatch directives state requests) request ∨
        provider.HasCall directives state requests (provider.Delivers directives file)

/-- A library of one file, which carries a once guard and imports a file that does not exist. -/
def unfinishedOnce : Library :=
  .ofFiles [("lib.glsl", "#pragma once\n#import \"missing.glsl\"\nint lib;\n")]

/-- The first call on the file fails, and leaves its once guard behind. The second one succeeds with
a marker, and no text has the file. -/
theorem not_keepsFiles_unfinishedOnce :
    let provider := unfinishedOnce.provider
    let request : Request Unit := ⟨"lib.glsl", 3, ()⟩
    (provider.answer {} (provider.afterBatch {} {} [request]) request).result =
      .ok ⟨"// File already included: lib.glsl\n", [.generated]⟩ ∧
    ¬ provider.KeepsFiles {} {} := by
  intro provider request
  have hfirst : (provider.expansion {} {} request).isOk = false := by decide +kernel
  have hsecond : provider.expansion {} (provider.afterBatch {} {} [request]) request =
      .ok .alreadyIncluded := by decide +kernel
  have htop : Path.normal request.text = ⟨"lib.glsl"⟩ := by decide +kernel
  have hparts : (ExpansionTree.alreadyIncluded).parts (Path.normal request.text) =
      [(⟨"lib.glsl"⟩, some .alreadyIncluded)] := by
    rw [htop]
    rfl
  refine ⟨by decide +kernel, fun hkeeps => ?_⟩
  have homits : provider.Omits {} ⟨"lib.glsl"⟩ (provider.afterBatch {} {} [request]) request :=
    ⟨_, hsecond, ⟨"lib.glsl"⟩, _, by rw [hparts]; exact List.mem_singleton_self _, Setoid.refl _,
      .inr rfl⟩
  -- The second text is the marker alone, and the first call has no text.
  rcases hkeeps _ [request] request homits with ⟨tree, htree, hdelivered⟩ | hcall
  · obtain rfl := Except.ok.inj (hsecond.symm.trans htree)
    obtain ⟨path, content, hmem, _, hcontent⟩ := hdelivered
    rw [hparts, List.mem_singleton] at hmem
    cases hmem
    exact hcontent rfl
  · obtain ⟨before, earlier, after, hsplit, tree, htree, _⟩ := hcall
    cases before with
    | nil =>
      cases hsplit
      have hok : (provider.expansion {} {} request).isOk = true := congrArg Except.isOk htree
      exact Bool.false_ne_true (hfirst.symm.trans hok)
    | cons other before => simp at hsplit

end ShaderInline
