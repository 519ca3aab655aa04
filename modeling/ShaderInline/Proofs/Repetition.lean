import ShaderInline.Proofs.Batches
import ShaderInline.Proofs.Blocks
import ShaderInline.Proofs.Contributions
import ShaderInline.Proofs.Insertions

/-!
# Repeated calls

When a call on a file has succeeded, a later one in the same batch knows every guard and every
imported file that the first one met. It passes over every block whose guard the first one opened,
so it passes over more lines. A block never ends before one inside it, so the later call is never
led to a line that the first one has passed over. All its imports then refer to what was inlined.
-/
namespace ShaderInline

variable {σ : Type}

/-- Whether the answers of a provider depend on the questions alone. -/
structure Provider.IsSteady (provider : Provider σ) : Prop where
  resolve : ∀ importText importer source other,
    (provider.resolve importText importer source).1 = (provider.resolve importText importer other).1
  read : ∀ path source other, (provider.read path source).1 = (provider.read path other).1

theorem Library.isSteady (library : Library) : library.provider.IsSteady :=
  ⟨fun _ _ _ _ => rfl, fun _ _ _ => rfl⟩

namespace ExpansionTree

/-- What follows the first line. -/
def tail? : ExpansionTree → Option ExpansionTree
  | copied _ _ rest | skipped _ rest | alreadyImported _ _ rest | inlined _ _ _ rest => some rest
  | done | alreadyIncluded => none

/-- Whether no line brings in a file or opens a guard. -/
def IsQuiet : ExpansionTree → Prop
  | done | alreadyIncluded => True
  | copied _ opened rest => opened = none ∧ IsQuiet rest
  | skipped _ rest | alreadyImported _ _ rest => IsQuiet rest
  | inlined _ _ _ _ => False

/-- Whether the lines of a file come to the same again, except that some are passed over now, and
that files which were inlined are only referred to. -/
inductive Repeats : ExpansionTree → ExpansionTree → Prop where
  | done : Repeats done done
  | copied (line : String) {again rest : ExpansionTree} (h : again.Repeats rest) :
      Repeats (copied line none again) (copied line none rest)
  | skipped (line : String) {again first rest : ExpansionTree} (hfirst : first.tail? = some rest)
      (h : again.Repeats rest) : Repeats (skipped line again) first
  | imported (importText : String) (file : Path) (content : Option ExpansionTree)
      {again rest : ExpansionTree} (h : again.Repeats rest) :
      Repeats (alreadyImported importText file again) (imported importText file content rest)

theorem Repeats.isQuiet {again first : ExpansionTree} (h : again.Repeats first) :
    again.IsQuiet := by
  induction h with
  | done => trivial
  | copied _ _ ih => exact ⟨rfl, ih⟩
  | skipped _ _ _ ih => exact ih
  | imported _ _ _ _ ih => exact ih

theorem exists_output_of_tail? {first rest : ExpansionTree} (h : first.tail? = some rest)
    (file : Path) (number : Nat) :
    ∃ own, first.output file number = own ++ rest.output file (number + 1) := by
  cases first with
  | done | alreadyIncluded => cases h
  | copied line opened rest =>
    cases h
    exact ⟨[⟨line, .source file number⟩], rfl⟩
  | skipped line rest =>
    cases h
    exact ⟨[], rfl⟩
  | alreadyImported importText path rest =>
    cases h
    exact ⟨_, rfl⟩
  | inlined importText path content rest =>
    cases h
    exact ⟨_, rfl⟩

end ExpansionTree

/-- Whether a line was copied from a file. -/
def OutputLine.IsFrom (line : OutputLine) (file : Path) : Prop :=
  (line.origin.lineOf? file).isSome

instance (line : OutputLine) (file : Path) : Decidable (line.IsFrom file) :=
  inferInstanceAs (Decidable ((line.origin.lineOf? file).isSome = true))

theorem OutputLine.origin_of_mem_generated {text : String} {line : OutputLine}
    (h : line ∈ OutputLine.generated text) : line.origin = .generated := by
  rw [OutputLine.generated, List.mem_map] at h
  obtain ⟨_, _, rfl⟩ := h
  rfl

/-- A marker has no copied lines. -/
theorem OutputLine.filter_generated_eq_nil (text : String) :
    (OutputLine.generated text).filter (·.origin ≠ .generated) = [] := by
  rw [List.filter_eq_nil_iff]
  intro line hline
  simp [origin_of_mem_generated hline]

theorem OutputLine.filter_generated_eq_self (text : String) :
    (OutputLine.generated text).filter (·.origin = .generated) = OutputLine.generated text := by
  rw [List.filter_eq_self]
  intro line hline
  simp [origin_of_mem_generated hline]

/-- The lines that are copied again were copied from the file before. -/
theorem ExpansionTree.Repeats.sublist {again first : ExpansionTree} (h : again.Repeats first)
    (file : Path) (number : Nat) :
    ((again.output file number).filter (·.origin ≠ .generated)).Sublist
      ((first.output file number).filter (·.IsFrom file)) := by
  induction h generalizing number with
  | done => exact List.Sublist.refl _
  | copied line _ ih => simpa [output, OutputLine.IsFrom, Origin.lineOf?] using ih (number + 1)
  | skipped line hfirst _ ih =>
    obtain ⟨own, houtput⟩ := exists_output_of_tail? hfirst file number
    rw [houtput, List.filter_append]
    exact List.sublist_append_of_sublist_right (ih (number + 1))
  | @imported importText path content again rest _ ih =>
    have htail : (ExpansionTree.imported importText path content rest).tail? = some rest := by
      cases content <;> rfl
    obtain ⟨own, houtput⟩ := exists_output_of_tail? htail file number
    rw [houtput, output, importedMarker, List.filter_append, List.filter_append,
      OutputLine.filter_generated_eq_nil, List.nil_append]
    exact List.sublist_append_of_sublist_right (ih (number + 1))

namespace Event

/-- The marker that stands for an event in the text of a call in which nothing is inlined. -/
def marker : Event → List OutputLine
  | resolved importText _ _ _ => ExpansionTree.importedMarker importText
  | skippedFile path => ExpansionTree.includedMarker path
  | _ => []

/-- Whether an event is no look-up, or finds a file that was inlined before. -/
def Refers (file : Path) (inlined : InlinedFiles) : Event → Prop
  | resolved _ importer _ answer => importer = file ∧ ∃ path, answer = .ok path ∧ inlined.contains path
  | _ => True

end Event

/-- Whether a run goes on to another one without reading a file, inlining one or meeting a new
guard, and only refers to inlined files in `file`, with the given markers. -/
structure Run.Idles (run after : Run σ) (file : Path) (markers : List OutputLine) : Prop where
  onceGuards : after.state.onceGuards = run.state.onceGuards
  namedGuards : after.state.namedGuards = run.state.namedGuards
  inlined : after.state.inlined = run.state.inlined
  events : ∃ added, after.events = run.events ++ added ∧ added.filterMap Event.readPath? = [] ∧
    added.flatMap Event.marker = markers ∧ ∀ event ∈ added, event.Refers file run.state.inlined

namespace Run.Idles

variable {run middle after : Run σ} {file : Path} {markers more : List OutputLine}

theorem refl (run : Run σ) (file : Path) : run.Idles run file [] :=
  ⟨rfl, rfl, rfl, [], by simp⟩

theorem trans (h : run.Idles middle file markers) (hmore : middle.Idles after file more) :
    run.Idles after file (markers ++ more) := by
  obtain ⟨added, hadded, hreads, hmarkers, hrefers⟩ := h.events
  obtain ⟨later, hlater, hreads', hmarkers', hrefers'⟩ := hmore.events
  refine ⟨hmore.onceGuards.trans h.onceGuards, hmore.namedGuards.trans h.namedGuards,
    hmore.inlined.trans h.inlined, added ++ later, ?_, ?_, ?_, fun event hmem => ?_⟩
  · rw [hlater, hadded, List.append_assoc]
  · rw [List.filterMap_append, hreads, hreads', List.append_nil]
  · rw [List.flatMap_append, hmarkers, hmarkers']
  · rw [h.inlined] at hrefers'
    rcases List.mem_append.mp hmem with hmem | hmem
    · exact hrefers event hmem
    · exact hrefers' event hmem

theorem reads_eq (h : run.Idles after file markers) : after.reads = run.reads := by
  obtain ⟨added, hadded, hreads, _⟩ := h.events
  show after.events.filterMap Event.readPath? = run.events.filterMap Event.readPath?
  rw [hadded, List.filterMap_append, hreads, List.append_nil]

theorem consulted {provider : Provider σ} {importText : String} {path : Path}
    (hresolve : (provider.resolve importText file run.source).1 = .ok path)
    (hknown : run.state.inlined.contains path) (number : Nat) (trailing : Option String) :
    run.Idles (run.consulted provider file number importText trailing) file
      (ExpansionTree.importedMarker importText) := by
  have hrefers : (Event.resolved importText file number (.ok path)).Refers file
      run.state.inlined := ⟨rfl, path, rfl, hknown⟩
  cases trailing with
  | none =>
    refine ⟨rfl, rfl, rfl, [.resolved importText file number (.ok path)], ?_, rfl, ?_, ?_⟩
    · simp [Run.consulted, remarkedOn, hresolve]
    · simp [Event.marker]
    · simpa using hrefers
  | some trailing =>
    refine ⟨rfl, rfl, rfl, [.remarked (.ignoredText file number importText trailing),
      .resolved importText file number (.ok path)], ?_, rfl, ?_, ?_⟩
    · simp [Run.consulted, remarkedOn, remarked, lookedUp, noted, Run.events, hresolve]
    · simp [Event.marker]
    · simpa [Event.Refers] using hrefers

end Run.Idles

section Lines

variable {provider : Provider σ} {directives : Directives} {opened : OpenFiles} {file path : Path}
  {number skip more left : Nat} {line : String} {lines : List String}
  {run again middle after : Run σ} {node : ExpansionTree → ExpansionTree} {tree : ExpansionTree}

theorem Passes.tail? (h : Passes provider directives opened file number line lines skip run node
    left after) (rest : ExpansionTree) : (node rest).tail? = some rest := by
  cases h <;> rfl

/-- When a line lies in a block, so does every block that begins at it. -/
theorem Passes.left_le {depth : Nat} (h : Passes provider directives opened file number line lines
    skip run node left after) (hle : skip ≤ more + 1)
    (hmore : more = blockLength (depthAfter line depth) lines) : left ≤ more := by
  cases h with
  | inBlock | alreadyImported | plain | opening => omega
  | skippedBlock _ hguard _ =>
    rw [hmore]
    exact blockLength_le_of_openedGuard? hguard depth

/-- A line is passed again when all that was known after it is known already. -/
theorem Passes.exists_repeats (hsteady : provider.IsSteady)
    (h : Passes provider directives opened file number line lines 0 run node left middle)
    (hknown : again.state.Extends middle.state) :
    ∃ node' more later, left ≤ more ∧ (∃ depth, more = blockLength depth lines) ∧
      Passes provider directives opened file number line lines 0 again node' more later ∧
      ∀ rest' rest, rest'.Repeats rest → (node' rest').Repeats (node rest) := by
  have hoff : ∃ depth, 0 = blockLength depth lines := ⟨0, by simp [blockLength]⟩
  cases h with
  | alreadyImported hline hresolve hrefers =>
    rw [hsteady.resolve _ _ _ again.source] at hresolve
    have hinlined := hknown.inlined _ (by simpa using hrefers.2)
    exact ⟨_, 0, _, Nat.le_refl _, hoff, .alreadyImported hline hresolve ⟨hrefers.1, hinlined⟩,
      fun _ _ hrest => .imported _ _ none hrest⟩
  | plain hline hguard =>
    exact ⟨_, 0, _, Nat.le_refl _, hoff, .plain hline hguard, fun _ _ hrest => .copied _ hrest⟩
  | @opening name run hline hguard hfresh =>
    have hname := hknown.namedGuards name (by simp [Run.defined])
    exact ⟨_, _, _, Nat.zero_le _, ⟨1, rfl⟩, .skippedBlock hline hguard hname,
      fun _ _ hrest => .skipped _ rfl hrest⟩
  | skippedBlock hline hguard hdefined =>
    have hname := hknown.namedGuards _ hdefined
    exact ⟨_, _, _, Nat.le_refl _, ⟨1, rfl⟩, .skippedBlock hline hguard hname,
      fun _ _ hrest => .skipped _ rfl hrest⟩

/-- The lines of a file can be walked again when all that was known behind them is known already.
The second walk lies in a conditional for the first `more` of them, and does so wherever the first
walk was in a block. -/
theorem Yields.exists_repeats (hsteady : provider.IsSteady)
    (h : Yields provider directives opened (.lines file lines number skip) run tree after)
    (hknown : again.state.Extends after.state) (hat : again.Walks file number lines)
    (hle : skip ≤ more) (hmore : ∃ depth, more = blockLength depth lines) :
    ∃ tree' after', Yields provider directives opened (.lines file lines number more) again tree'
      after' ∧ tree'.Repeats tree := by
  generalize htask : Task.lines file lines number skip = task at h
  induction h generalizing file lines number skip again more with
  | alreadyIncluded | entered => cases htask
  | done =>
    cases htask
    exact ⟨.done, again, .done hat, .done⟩
  | @passed _ file number line lines skip run node left middle rest after _ hline hrest ih =>
    cases htask
    cases more with
    | succ more =>
      -- The second walk is in a block. If the first one enters a block here, that is inside this one.
      obtain ⟨depth, hdepth⟩ := hmore
      obtain ⟨_, _, hmore⟩ := eq_blockLength_of_succ_eq hdepth
      obtain ⟨tree', after', hagain, hrepeats⟩ :=
        ih hknown hat.tail (hline.left_le hle hmore) ⟨_, hmore⟩ rfl
      exact ⟨_, after', .passed hat .inBlock hagain, .skipped line (hline.tail? rest) hrepeats⟩
    | zero =>
      -- Both walks look at the line, and the second one may enter a block that the first one opened.
      obtain rfl : skip = 0 := by omega
      obtain ⟨node', more, later, hleft, hmore, hpasses, hnode⟩ :=
        hline.exists_repeats hsteady (hknown.trans hrest.steps.extends)
      have hlater := hpasses.steps
      obtain ⟨tree', after', hagain, hrepeats⟩ := ih (hlater.extends.trans hknown)
        (hat.tail.mono hlater.events_prefix.subset) hleft hmore rfl
      exact ⟨_, after', .passed hat hpasses hagain, hnode _ _ hrepeats⟩
  | @inlined _ file number line lines importText trailing path run content middle rest after
      _ hline hresolve _ hchild hrest _ ihrest =>
    cases htask
    cases more with
    | succ more =>
      obtain ⟨depth, hdepth⟩ := hmore
      obtain ⟨_, _, hmore⟩ := eq_blockLength_of_succ_eq hdepth
      obtain ⟨tree', after', hagain, hrepeats⟩ :=
        ihrest hknown hat.tail (Nat.zero_le more) ⟨_, hmore⟩ rfl
      exact ⟨_, after', .passed hat .inBlock hagain, .skipped line rfl hrepeats⟩
    | zero =>
      have hcompleted : (middle.completed path (content.flatten path).text).state.inlined.contains
          path := by
        simp [Run.completed, InlinedFiles.contains_add]
      have hinlined := (hknown.trans hrest.steps.extends).inlined path hcompleted
      rw [hsteady.resolve _ _ _ again.source] at hresolve
      have hlater := Run.Steps.consulted again provider file number importText trailing
      obtain ⟨tree', after', hagain, hrepeats⟩ := ihrest (hlater.extends.trans hknown)
        (hat.tail.mono hlater.events_prefix.subset) (Nat.le_refl 0) ⟨0, by simp [blockLength]⟩ rfl
      exact ⟨_, after', .passed hat (.alreadyImported hline hresolve ⟨hchild.not_contains, hinlined⟩)
        hagain, .imported importText path (some content) hrepeats⟩

theorem Passes.isQuiet {rest : ExpansionTree} (h : Passes provider directives opened file number
    line lines skip run node left after) (hquiet : (node rest).IsQuiet) : rest.IsQuiet := by
  cases h with
  | inBlock | alreadyImported | skippedBlock => exact hquiet
  | plain | opening => exact hquiet.2

/-- A walk on which nothing is inlined needs no room to nest files. -/
theorem Yields.expands_of_isQuiet
    (h : Yields provider directives opened (.lines file lines number skip) run tree after)
    (hquiet : tree.IsQuiet) (limit : Nat) :
    Expands provider directives limit opened (.lines file lines number skip) run (.ok tree)
      after := by
  generalize htask : Task.lines file lines number skip = task at h
  induction h generalizing file lines number skip with
  | alreadyIncluded | entered => cases htask
  | done hat =>
    cases htask
    exact .done hat
  | passed hat hline _ ih =>
    cases htask
    exact hline.expands hat (ih (hline.isQuiet hquiet) rfl)
  | inlined => exact hquiet.elim

/-- A line that neither brings in a file nor opens a guard leaves a marker at most. -/
theorem Passes.exists_idles {rest : ExpansionTree} (h : Passes provider directives opened file number
    line lines skip run node left after) (hquiet : (node rest).IsQuiet) :
    ∃ markers, run.Idles after file markers ∧
      ((node rest).output file number).filter (·.origin = .generated) =
        markers ++ (rest.output file (number + 1)).filter (·.origin = .generated) := by
  cases h with
  | inBlock => exact ⟨[], .refl _ _, rfl⟩
  | plain => exact ⟨[], .refl _ _, by simp [ExpansionTree.output]⟩
  | opening => cases hquiet.1
  | alreadyImported hline hresolve hrefers =>
    refine ⟨_, .consulted hresolve hrefers.2 _ _, ?_⟩
    rw [ExpansionTree.output, List.filter_append, ExpansionTree.importedMarker,
      OutputLine.filter_generated_eq_self]
  | skippedBlock =>
    refine ⟨[], ⟨rfl, rfl, rfl, [_], Run.events_noted _ _, rfl, rfl, ?_⟩, rfl⟩
    simp [Event.Refers]

theorem Yields.idles
    (h : Yields provider directives opened (.lines file lines number skip) run tree after)
    (hquiet : tree.IsQuiet) :
    run.Idles after file ((tree.output file number).filter (·.origin = .generated)) := by
  generalize htask : Task.lines file lines number skip = task at h
  induction h generalizing file lines number skip with
  | alreadyIncluded | entered => cases htask
  | done =>
    cases htask
    exact .refl _ _
  | passed hat hline _ ih =>
    cases htask
    obtain ⟨markers, hidles, houtput⟩ := hline.exists_idles hquiet
    rw [houtput]
    exact hidles.trans (ih (hline.isQuiet hquiet) rfl)
  | inlined => exact hquiet.elim

end Lines

section File

variable {provider : Provider σ} {directives : Directives} {opened : OpenFiles} {path : Path}
  {run again after : Run σ} {tree : ExpansionTree}

/-- A file with a once guard is known to carry it when it has been expanded. -/
theorem Yields.isGuarded {content : String}
    (h : Yields provider directives opened (.file path) run tree after)
    (hread : (provider.read path run.source).1 = .ok content)
    (honce : directives.guardsOnce (Text.lines content)) : after.state.isGuarded path := by
  cases h with
  | alreadyIncluded _ _ _ hguarded => exact hguarded
  | entered _ hread' _ hwalk =>
    obtain rfl := Except.ok.inj (hread'.symm.trans hread)
    refine hwalk.steps.extends.onceGuards _ ?_
    simp [Run.begun, honce, Run.guardedOnce]

/-- A file can be expanded again when all that was known behind it is known already. Either it is
passed over for its once guard, or its lines are walked again. -/
theorem Yields.exists_repeats_file (hsteady : provider.IsSteady)
    (h : Yields provider directives opened (.file path) run tree after)
    (hknown : again.state.Extends after.state) (limit : Nat) :
    ∃ tree' after', Expands provider directives (limit + 1) opened (.file path) again (.ok tree')
        after' ∧
      (again.asked provider path (opened.push path).size).Idles after' path
        ((tree'.output path 1).filter (·.origin = .generated)) ∧
      ((tree'.output path 1).filter (·.origin ≠ .generated)).Sublist
        ((tree.output path 1).filter (·.IsFrom path)) := by
  have henter := OpenFiles.enter_of_not_contains h.not_contains
  have hagain : ∃ content, (provider.read path run.source).1 = .ok content ∧
      (provider.read path again.source).1 = .ok content := by
    cases h with
    | alreadyIncluded _ hread => exact ⟨_, hread, (hsteady.read _ _ _).trans hread⟩
    | entered _ hread => exact ⟨_, hread, (hsteady.read _ _ _).trans hread⟩
  obtain ⟨content, hfirst, hread⟩ := hagain
  by_cases honce : directives.guardsOnce (Text.lines content)
  · have hguarded : again.state.isGuarded path :=
      hknown.onceGuards _ (h.isGuarded hfirst honce)
    refine ⟨_, _, .alreadyIncluded henter hread honce hguarded,
      ⟨rfl, rfl, rfl, [_], Run.events_noted _ _, rfl, ?_, ?_⟩, ?_⟩
    · rw [ExpansionTree.output, ExpansionTree.includedMarker, OutputLine.filter_generated_eq_self]
      exact List.flatMap_singleton _ _
    · simp [Event.Refers]
    · rw [ExpansionTree.output, ExpansionTree.includedMarker, OutputLine.filter_generated_eq_nil]
      exact List.nil_sublist _
  · cases h with
    | alreadyIncluded _ hread' honce' _ =>
      obtain rfl := Except.ok.inj (hread'.symm.trans hfirst)
      exact absurd honce' honce
    | entered _ hread' _ hwalk =>
      obtain rfl := Except.ok.inj (hread'.symm.trans hfirst)
      have hat : (again.asked provider path (opened.push path).size).Walks path 1 (Text.lines _) :=
        ⟨_, [], ⟨_, Run.read_mem_asked hread _⟩, rfl, rfl⟩
      have hasked : (again.asked provider path (opened.push path).size).state.Extends after.state :=
        hknown
      obtain ⟨tree', after', hagain, hrepeats⟩ :=
        hwalk.exists_repeats hsteady hasked hat (Nat.le_refl 0) ⟨0, by simp [blockLength]⟩
      have hwalks := hagain.expands_of_isQuiet hrepeats.isQuiet limit
      have hbegun : ∀ run : Run σ, run.begun directives path _ = run := fun _ => if_neg honce
      rw [← hbegun (again.asked _ _ _)] at hwalks
      have hexpands := Expands.entered henter hread (fun h => absurd h honce) hwalks
      exact ⟨tree', after', hexpands, hagain.idles hrepeats.isQuiet, hrepeats.sublist path 1⟩

end File

/-- The lines of a text with their origins. -/
def FlatText.outputLines (flat : FlatText) : List OutputLine :=
  List.zipWith OutputLine.mk (Text.lines flat.text) flat.origins

theorem FlatText.outputLines_ofLines {lines : List OutputLine}
    (h : Text.AreLines (lines.map (·.text))) : (FlatText.ofLines lines).outputLines = lines := by
  rw [outputLines, ofLines, Text.lines_join h, List.zipWith_map, List.zipWith_self]
  exact List.map_id _

section Call

variable {provider : Provider σ} {directives : Directives} {limit : Nat} {text : String}
  {state : BatchState} {source : σ} {first : FlatText}

/-- When a call has succeeded, then after any further calls, successful or not, a call on the same
file succeeds again, whatever the room to nest files. It reads that file alone, and leaves the guards
and the inlined files as they are. The lines it copies were copied from the file before, in the same
order. Its other lines are the markers of its imports, each of which refers to a file that was
inlined before, or else one marker for the file as a whole. -/
theorem call_repeats (hsteady : provider.IsSteady)
    (hfirst : (provider.call directives limit text {} state source).result = .ok first)
    (requests : List (Request σ)) (room : Nat) (later : σ) :
    let between := provider.afterBatch directives
      (provider.call directives limit text {} state source).state requests
    let again := provider.call directives (room + 1) text {} between later
    ∃ flat, again.result = .ok flat ∧
      again.run.reads = [Path.normal text] ∧
      again.state.onceGuards = between.onceGuards ∧
      again.state.namedGuards = between.namedGuards ∧
      again.state.inlined = between.inlined ∧
      (flat.outputLines.filter (·.origin ≠ .generated)).Sublist
        (first.outputLines.filter (·.IsFrom (Path.normal text))) ∧
      flat.outputLines.filter (·.origin = .generated) = again.run.events.flatMap Event.marker ∧
      ∀ importText importer line answer,
        .resolved importText importer line answer ∈ again.run.events →
          importer = Path.normal text ∧ ∃ path, answer = .ok path ∧ between.inlined.contains path := by
  intro between again
  obtain ⟨tree, _, rfl, hyields⟩ := call_yields hfirst
  have hknown : ({ source := later, state := between } : Run σ).state.Extends
      (provider.call directives limit text {} state source).state :=
    afterBatch_extends provider directives _ requests
  obtain ⟨tree', after', hexpands, hidles, hsublist⟩ :=
    hyields.exists_repeats_file hsteady hknown room
  obtain ⟨hresult, hrun⟩ := call_of_expands hexpands
  have hagain := hexpands.yields rfl
  obtain ⟨added, hadded, hreads, hmarkers, hrefers⟩ := hidles.events
  have hflat : (tree'.flatten (Path.normal text)).outputLines = tree'.output (Path.normal text) 1 :=
    FlatText.outputLines_ofLines hagain.areLines
  have hflat' : (tree.flatten (Path.normal text)).outputLines = tree.output (Path.normal text) 1 :=
    FlatText.outputLines_ofLines hyields.areLines
  have hstate : again.state = after'.state := congrArg Run.state hrun
  rw [Run.events_asked] at hadded
  refine ⟨_, hresult, ?_, ?_, ?_, ?_, ?_, ?_, ?_⟩
  · rw [hrun, hidles.reads_eq, Run.reads_asked]
    rfl
  · rw [hstate, hidles.onceGuards]
    rfl
  · rw [hstate, hidles.namedGuards]
    rfl
  · rw [hstate, hidles.inlined]
    rfl
  · rw [hflat, hflat']
    exact hsublist
  · rw [hflat, ← hmarkers, hrun, hadded]
    simp [Event.marker, Run.events]
  · intro importText importer line answer hmem
    rw [hrun, hadded] at hmem
    have hadd : Event.resolved importText importer line answer ∈ added := by
      simpa [Run.events] using hmem
    exact hrefers _ hadd

/-- A library with a file that imports another one before and within a guarded block, and a file that
imports the first one and then fails. -/
def guardedTop : Library :=
  .ofFiles [("top", "#import \"a\"\n#ifndef T\n#define T\n#import \"a\"\n#endif\nint x;\n"),
    ("a", "int a;\n"), ("broken", "#import \"top\"\n#import \"gone\"\n")]

def guardedTopText : FlatText where
  text := "\n// BEGIN IMPORT: a (from top)\nint a;\n// END IMPORT: a\n\n" ++
    "#ifndef T\n#define T\n// Already imported: a\n#endif\nint x;\n"
  origins := [.generated, .generated, .source ⟨"a"⟩ 1, .generated, .generated, .source ⟨"top"⟩ 2,
    .source ⟨"top"⟩ 3, .generated, .source ⟨"top"⟩ 5, .source ⟨"top"⟩ 6]

/-- Between the two calls another one fails, which imports the file. -/
theorem call_repeats_guardedTop :
    let between := guardedTop.provider.afterBatch {}
      (guardedTop.provider.call {} 3 "top" {} {} ()).state [⟨"broken", 4, ()⟩]
    (guardedTop.provider.call {} 3 "top" {} {} ()).result = .ok guardedTopText ∧
    (guardedTop.provider.call {} 1 "top" {} between ()).result =
      .ok ⟨"// Already imported: a\nint x;\n", [.generated, .source ⟨"top"⟩ 6]⟩ ∧
    (guardedTop.provider.call {} 1 "top" {} between ()).run.reads = [⟨"top"⟩] ∧
    (guardedTop.provider.call {} 1 "top" {} between ()).state.inlined = between.inlined := by
  intro between
  have hfirst : (guardedTop.provider.call {} 3 "top" {} {} ()).result = .ok guardedTopText := by
    decide +kernel
  have htop : Path.normal "top" = ⟨"top"⟩ := by decide +kernel
  obtain ⟨flat, _, hreads, _, _, hinlined, _⟩ :=
    call_repeats guardedTop.isSteady hfirst [⟨"broken", 4, ()⟩] 0 ()
  rw [htop] at hreads
  exact ⟨hfirst, by decide +kernel, hreads, hinlined⟩

end Call

end ShaderInline
