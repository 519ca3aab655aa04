import ShaderInline.Proofs.Repetition
import ShaderInline.Proofs.Translation

/-!
# Files that are open around a call

A call may begin below files that are open already. They are open again when it ends, and all that
they do to it is to refuse a file that they name. A call that succeeds was refused nothing, so alone
it comes to the same. A call that alone is led to none of them does the same below them, whatever it
comes to: the cycle of a failure lies among the files that the call itself has opened.
-/
namespace ShaderInline

variable {σ : Type}

/-- What is open after a call is what was open before it. -/
theorem OpenFiles.visit_eq (opened : OpenFiles) (path : Path) : opened.visit path = opened := by
  unfold visit
  split
  case h_1 entered henter =>
    obtain rfl := eq_push_of_enter henter
    simp [leave, push]
  case h_2 => rfl

/-- The event, with `outer` more files open around it. -/
def Event.deeper (outer : Nat) : Event → Event
  | read path depth answer => read path (outer + depth) answer
  | event => event

@[simp] theorem Event.readPath?_deeper (outer : Nat) (event : Event) :
    (event.deeper outer).readPath? = event.readPath? := by
  cases event <;> rfl

/-- Nothing is changed but what is open around the expansion. -/
def Translation.outside (opened : OpenFiles) : Translation where
  outer := opened.files

section Outside

variable {opened inner : OpenFiles} {path : Path}

@[simp] theorem Translation.outside_opens_empty (opened : OpenFiles) :
    (outside opened).opens {} = opened := by
  simp [outside, opens]

theorem Translation.contains_outside_opens :
    ((outside opened).opens inner).contains path ↔
      opened.contains path ∨ inner.contains path := by
  simp [outside, opens, OpenFiles.contains]

theorem Translation.size_outside_push :
    (((outside opened).opens inner).push path).size = opened.size + (inner.push path).size := by
  simp [outside, opens, OpenFiles.push, OpenFiles.size]

theorem Translation.tree_outside (opened : OpenFiles) (tree : ExpansionTree) :
    (outside opened).tree tree = tree := by
  induction tree with
  | done | alreadyIncluded => rfl
  | copied _ _ _ ih | skipped _ _ ih => simp only [Translation.tree, ih]; rfl
  | alreadyImported _ _ _ ih => simp only [Translation.tree, ih]; rfl
  | inlined _ _ _ _ ihcontent ihrest => simp only [Translation.tree, ihcontent, ihrest]; rfl

theorem Translation.result_outside (opened : OpenFiles) (result : Except Stop ExpansionTree) :
    (outside opened).result result = result := by
  cases result with
  | ok tree => simp [Translation.result, tree_outside]
  | error stop =>
    cases stop with
    | failed failure =>
      exact congrArg (Except.error ∘ Stop.failed) ((outside opened).failure_of_id rfl rfl failure)
    | tooDeep => rfl

end Outside

/-- Whether a run below some open files has come as far as one that lies `outer` files less
deep. -/
structure Run.LiesBelow (outer : Nat) (below run : Run σ) : Prop where
  events : below.events = run.events.map (Event.deeper outer)
  state : below.state = run.state

namespace Run.LiesBelow

variable {provider : Provider σ} {outer : Nat} {below run : Run σ}

theorem reads_eq (h : below.LiesBelow outer run) : below.reads = run.reads := by
  change below.events.filterMap Event.readPath? = run.events.filterMap Event.readPath?
  rw [h.events, List.filterMap_map]
  exact congrArg (run.events.filterMap ·) (funext (Event.readPath?_deeper outer))

theorem hasRead (h : below.LiesBelow outer run) {file : Path} {content : String}
    (hread : below.HasRead file content) : run.HasRead file content := by
  obtain ⟨depth, hmem⟩ := hread
  rw [h.events] at hmem
  obtain ⟨event, hevent, hdeeper⟩ := List.mem_map.mp hmem
  cases event with
  | read path depth answer =>
    cases hdeeper
    exact ⟨depth, hevent⟩
  | _ => cases hdeeper

theorem walks (h : below.LiesBelow outer run) {file : Path} {number : Nat} {lines : List String}
    (hat : below.Walks file number lines) : run.Walks file number lines := by
  obtain ⟨content, before, hread, hlines⟩ := hat
  exact ⟨content, before, h.hasRead hread, hlines⟩

theorem noted (h : below.LiesBelow outer run) (event : Event) :
    (below.noted (event.deeper outer)).LiesBelow outer (run.noted event) :=
  ⟨by simp [h.events], h.state⟩

theorem asked (h : below.LiesBelow outer run) (hsteady : provider.IsSteady) (path : Path)
    (depth : Nat) :
    (below.asked provider path (outer + depth)).LiesBelow outer (run.asked provider path depth) := by
  have hanswer := hsteady.read path below.source run.source
  refine ⟨?_, h.state⟩
  rw [events_asked, events_asked, h.events, hanswer, List.map_append]
  rfl

theorem remarkedOn (h : below.LiesBelow outer run) (file : Path) (line : Nat) (importText : String)
    (trailing : Option String) :
    (below.remarkedOn file line importText trailing).LiesBelow outer
      (run.remarkedOn file line importText trailing) := by
  cases trailing with
  | none => exact h
  | some trailing =>
    have hnoted := h.noted (.remarked (.ignoredText file line importText trailing))
    exact ⟨hnoted.events, by simp only [Run.remarkedOn, Run.remarked, Run.noted, h.state]⟩

theorem consulted (h : below.LiesBelow outer run) (hsteady : provider.IsSteady) (file : Path)
    (line : Nat) (importText : String) (trailing : Option String) :
    (below.consulted provider file line importText trailing).LiesBelow outer
      (run.consulted provider file line importText trailing) := by
  have hremarked := h.remarkedOn file line importText trailing
  have hanswer := hsteady.resolve importText file
    (below.remarkedOn file line importText trailing).source
    (run.remarkedOn file line importText trailing).source
  refine ⟨?_, hremarked.state⟩
  rw [Run.consulted, Run.consulted, events_lookedUp, events_lookedUp, hremarked.events, hanswer,
    List.map_append]
  rfl

theorem begun (h : below.LiesBelow outer run) (directives : Directives) (path : Path)
    (content : String) :
    (below.begun directives path content).LiesBelow outer (run.begun directives path content) := by
  refine ⟨by simp [h.events], ?_⟩
  unfold Run.begun
  split
  · simp only [Run.guardedOnce, h.state]
  · exact h.state

theorem defined (h : below.LiesBelow outer run) (name : String) :
    (below.defined name).LiesBelow outer (run.defined name) :=
  ⟨h.events, by simp only [Run.defined, h.state]⟩

theorem completed (h : below.LiesBelow outer run) (path : Path) (expanded : String) :
    (below.completed path expanded).LiesBelow outer (run.completed path expanded) :=
  ⟨h.events, by simp only [Run.completed, h.state]⟩

theorem isGuarded (h : below.LiesBelow outer run) (path : Path) :
    below.state.isGuarded path = run.state.isGuarded path := by
  rw [h.state]

theorem refers_iff (h : below.LiesBelow outer run) {opened inner : OpenFiles} {path : Path}
    (hclosed : ¬ opened.contains path) :
    below.Refers ((Translation.outside opened).opens inner) path ↔ run.Refers inner path := by
  rw [Refers, Refers, h.state, Translation.contains_outside_opens, or_iff_right hclosed]

end Run.LiesBelow

section Rules

variable {provider : Provider σ} {directives : Directives} {limit : Nat}
  {opened around inner : OpenFiles} {task : Task} {below run after : Run σ}
  {result : Except Stop ExpansionTree} {tree : ExpansionTree}

/-- What succeeds below some open files was refused none of them, and alone comes to the same. -/
theorem Expands.alone (h : Expands provider directives limit around task below result after)
    (hsteady : provider.IsSteady) (hresult : result = .ok tree)
    (haround : around = (Translation.outside opened).opens inner)
    (hbelow : below.LiesBelow opened.size run) :
    ∃ ended, Expands provider directives limit inner task run (.ok tree) ended ∧
      after.LiesBelow opened.size ended := by
  have hread : ∀ {below run : Run σ} {path content},
      (provider.read path below.source).1 = .ok content →
        (provider.read path run.source).1 = .ok content :=
    fun hread => (hsteady.read _ _ _).trans hread
  have hresolve : ∀ {below run : Run σ} {importText file path},
      (provider.resolve importText file below.source).1 = .ok path →
        (provider.resolve importText file run.source).1 = .ok path :=
    fun hresolve => (hsteady.resolve _ _ _ _).trans hresolve
  induction h generalizing inner run tree with
  | tooDeep | circular | unreadable | malformed | unresolved | failedImport => cases hresult
  | alreadyIncluded henter hanswer honce hknown =>
    cases hresult
    obtain ⟨hclosed, _⟩ := OpenFiles.enter_eq_ok henter
    obtain rfl := OpenFiles.eq_push_of_enter henter
    rw [haround, Translation.contains_outside_opens, not_or] at hclosed
    rw [haround, Translation.size_outside_push]
    rw [hbelow.state] at hknown
    have henter' := OpenFiles.enter_of_not_contains hclosed.2
    exact ⟨_, .alreadyIncluded henter' (hread hanswer) honce hknown,
      (hbelow.asked hsteady _ _).noted (.skippedFile _)⟩
  | entered henter hanswer hnew _ ih =>
    obtain ⟨hclosed, _⟩ := OpenFiles.enter_eq_ok henter
    obtain rfl := OpenFiles.eq_push_of_enter henter
    rw [haround, Translation.contains_outside_opens, not_or] at hclosed
    rw [haround, Translation.size_outside_push] at ih
    rw [hbelow.state] at hnew
    obtain ⟨ended, hwalk, hended⟩ := ih hresult (Translation.opens_push _ _ _).symm
      ((hbelow.asked hsteady _ _).begun directives _ _)
    have henter' := OpenFiles.enter_of_not_contains hclosed.2
    exact ⟨ended, .entered henter' (hread hanswer) hnew hwalk, hended⟩
  | done hat =>
    cases hresult
    exact ⟨run, .done (hbelow.walks hat), hbelow⟩
  | inBlock hat _ ih =>
    obtain ⟨rest, rfl, rfl⟩ := map_eq_ok_iff.mp hresult
    obtain ⟨ended, hrest, hended⟩ := ih rfl haround hbelow
    exact ⟨ended, .inBlock (hbelow.walks hat) hrest, hended⟩
  | alreadyImported hat hline hanswer hknown _ ih =>
    obtain ⟨rest, rfl, rfl⟩ := map_eq_ok_iff.mp hresult
    obtain ⟨ended, hrest, hended⟩ := ih rfl haround (hbelow.consulted hsteady _ _ _ _)
    have hclosed := hknown.1
    rw [haround, Translation.contains_outside_opens, not_or] at hclosed
    rw [haround, hbelow.refers_iff hclosed.1] at hknown
    exact ⟨ended, .alreadyImported (hbelow.walks hat) hline (hresolve hanswer) hknown hrest, hended⟩
  | inlined hat hline hanswer hfresh hchild _ ihchild ihrest =>
    obtain ⟨rest, rfl, rfl⟩ := map_eq_ok_iff.mp hresult
    -- The file was expanded, so it is none of those that were open.
    have hclosed := (hchild.yields rfl).not_contains
    rw [haround, Translation.contains_outside_opens, not_or] at hclosed
    rw [haround, hbelow.refers_iff hclosed.1] at hfresh
    obtain ⟨middle, hfile, hmiddle⟩ := ihchild rfl haround (hbelow.consulted hsteady _ _ _ _)
    obtain ⟨ended, hrest, hended⟩ := ihrest rfl haround (hmiddle.completed _ _)
    exact ⟨ended, .inlined (hbelow.walks hat) hline (hresolve hanswer) hfresh hfile hrest, hended⟩
  | plain hat hline hguard _ ih =>
    obtain ⟨rest, rfl, rfl⟩ := map_eq_ok_iff.mp hresult
    obtain ⟨ended, hrest, hended⟩ := ih rfl haround hbelow
    exact ⟨ended, .plain (hbelow.walks hat) hline hguard hrest, hended⟩
  | opening hat hline hguard hfresh _ ih =>
    obtain ⟨rest, rfl, rfl⟩ := map_eq_ok_iff.mp hresult
    obtain ⟨ended, hrest, hended⟩ := ih rfl haround (hbelow.defined _)
    rw [hbelow.state] at hfresh
    exact ⟨ended, .opening (hbelow.walks hat) hline hguard hfresh hrest, hended⟩
  | skippedBlock hat hline hguard hknown _ ih =>
    obtain ⟨rest, rfl, rfl⟩ := map_eq_ok_iff.mp hresult
    obtain ⟨ended, hrest, hended⟩ := ih rfl haround (hbelow.noted (.skippedGuard _ _ _))
    rw [hbelow.state] at hknown
    exact ⟨ended, .skippedBlock (hbelow.walks hat) hline hguard hknown hrest, hended⟩

end Rules

/-- What keeps a call below open files in step with the call alone, if that is led to none of
them. -/
theorem simulates_outside {provider : Provider σ} {directives : Directives} {opened : OpenFiles}
    {final : Run σ} (hsteady : provider.IsSteady)
    (htargets : ∀ path ∈ final.targets, ¬ opened.contains path) :
    (Translation.outside opened).Simulates provider directives provider directives final
      (fun path => ¬ opened.contains path) (fun run below => below.LiesBelow opened.size run) where
  line line := .of_trim rfl directives
  same _ _ := Iff.rfl
  apart hclosed file hmem hsame := hclosed (OpenFiles.contains_iff.mpr ⟨file, hmem, hsame⟩)
  unreadable := by
    intro run below path cause depth hbelow _ _ hread
    exact ⟨(hsteady.read path below.source run.source).trans hread,
      hbelow.asked hsteady path depth⟩
  read := by
    intro run below path content depth hbelow _ _ hread
    have hasked := hbelow.asked hsteady path depth
    refine ⟨content, (hsteady.read path below.source run.source).trans hread,
      by simp [Translation.outside], ?_, hasked.noted (.skippedFile path),
      hasked.begun directives path content⟩
    rw [hbelow.state]
    rfl
  unresolved := by
    intro run below file number line importText trailing trailing' cause hbelow _ _ _ hline hline'
      hresolve
    cases hline.symm.trans hline'
    exact ⟨(hsteady.resolve importText file below.source run.source).trans hresolve, rfl,
      hbelow.consulted hsteady file number importText trailing⟩
  resolved := by
    intro run below file number line importText trailing trailing' path hbelow _ hfinal _ hline
      hline' hresolve
    cases hline.symm.trans hline'
    have hmem := Run.mem_targets_of_resolved
      (hfinal.events_prefix.subset (Run.resolved_mem_consulted hresolve number trailing))
    refine ⟨(hsteady.resolve importText file below.source run.source).trans hresolve,
      htargets path hmem, ?_, hbelow.consulted hsteady file number importText trailing⟩
    rw [hbelow.state]
    rfl
  completed := by
    intro run below importText file number path tree _ hbelow _ _
    rw [Translation.tree_outside]
    exact hbelow.completed path _
  names hbelow _ := by rw [hbelow.state]
  defined name hbelow := hbelow.defined name
  skippedGuard name file number hbelow := hbelow.noted (.skippedGuard name file number)

theorem exists_of_isOk {ε α : Type} {result : Except ε α} (h : result.isOk) :
    ∃ a, result = .ok a := by
  cases result with
  | ok a => exact ⟨a, rfl⟩
  | error e => cases h

/-- Whether a call below `outer` open files does what another one does without them. -/
structure Outcome.LiesBelow {ε : Type} (outer : Nat) (below alone : Outcome σ ε) : Prop where
  result : below.result = alone.result
  reads : below.run.reads = alone.run.reads
  state : below.state = alone.state
  /-- The same happens, at depths that count the files around the call. -/
  events : below.run.events = alone.run.events.map (Event.deeper outer)

/-- A call leaves the files that are open around it as they were, whatever it comes to. If it
succeeds, then it does the same without them. If without them it begins at none of them and is led
to none of them, then it does the same below them and comes to the same text or failure. -/
theorem call_below_openFiles {provider : Provider σ} (hsteady : provider.IsSteady)
    (directives : Directives) (limit : Nat) (text : String) (opened : OpenFiles)
    (state : BatchState) (source later : σ) :
    let alone := provider.call directives limit text {} state source
    let below := provider.call directives limit text opened state later
    below.opened = opened ∧
    (below.result.isOk → below.LiesBelow opened.size alone) ∧
    ((∀ path ∈ Path.normal text :: alone.run.targets, ¬ opened.contains path) →
      below.LiesBelow opened.size alone) := by
  intro alone below
  have hruns : Run.LiesBelow opened.size { source := later, state } { source, state } :=
    ⟨rfl, rfl⟩
  refine ⟨opened.visit_eq _, fun hok => ?_, fun hnone => ?_⟩
  · obtain ⟨flat, hflat⟩ := exists_of_isOk hok
    obtain ⟨tree, htree, rfl, _⟩ := call_yields hflat
    have hexpands := expands_expandFile provider directives limit opened (Path.normal text)
      { source := later, state }
    obtain ⟨ended, halone, hended⟩ := hexpands.alone hsteady htree
      (Translation.outside_opens_empty opened).symm hruns
    obtain ⟨hresult, hrun⟩ := call_of_expands halone
    rw [← hrun] at hended
    exact ⟨hflat.trans hresult.symm, hended.reads_eq, hended.state, hended.events⟩
  · obtain ⟨htop, htargets⟩ := List.forall_mem_cons.mp hnone
    obtain ⟨ended, halone, hbelow, _, hended⟩ := call_translate
      (simulates_outside hsteady htargets) rfl (by simp) htop hruns
    rw [Translation.outside_opens_empty] at hbelow hended
    rw [Translation.result_outside] at hbelow
    exact ⟨hbelow.trans halone.symm, hended.reads_eq, hended.state, hended.events⟩

/-- A library with a cycle of two files behind a third one, and a file that imports nothing. -/
def cycleBehind : Library :=
  .ofFiles [("main", "#import \"leaf\"\n#import \"a\"\n"), ("a", "#import \"b\"\n"),
    ("b", "#import \"leaf\"\n#import \"a\" again\n"), ("leaf", "int l;\n")]

theorem call_below_openFiles_cycleBehind :
    let provider := cycleBehind.provider
    let opened : OpenFiles := ⟨[⟨"top"⟩, ⟨"side"⟩]⟩
    let alone := provider.call {} 5 "main" {} {} ()
    let below := provider.call {} 5 "main" opened {} ()
    let leaf := provider.call {} 5 "leaf" opened {} ()
    alone.result = .error (.failed (.imported "a" ⟨"main"⟩ 2 (.imported "b" ⟨"a"⟩ 1
      (.imported "a" ⟨"b"⟩ 2 (.circular [⟨"a"⟩, ⟨"b"⟩, ⟨"a"⟩]))))) ∧
    below.opened = opened ∧ below.LiesBelow 2 alone ∧
    leaf.result.isOk ∧ leaf.LiesBelow 2 (provider.call {} 5 "leaf" {} {} ()) ∧
    (provider.call {} 5 "main" ⟨[⟨"leaf"⟩]⟩ {} ()).result = .error (.failed
      (.imported "leaf" ⟨"main"⟩ 1 (.circular [⟨"leaf"⟩, ⟨"main"⟩, ⟨"leaf"⟩]))) := by
  intro provider opened alone below leaf
  have hnone : ∀ path ∈ Path.normal "main" :: alone.run.targets, ¬ opened.contains path := by
    decide +kernel
  have hok : leaf.result.isOk := by decide +kernel
  obtain ⟨hopened, _, hbelow⟩ :=
    call_below_openFiles cycleBehind.isSteady {} 5 "main" opened {} () ()
  obtain ⟨_, hleaf, _⟩ := call_below_openFiles cycleBehind.isSteady {} 5 "leaf" opened {} () ()
  exact ⟨by decide +kernel, hopened, hbelow hnone, hok, hleaf hok, by decide +kernel⟩

end ShaderInline
