import Mathlib.Logic.Relation
import ShaderInline.Expansion.Walk

/-!
# Steps of a run

The run that each step of an expansion leaves behind, as a function of the run it starts from. A
step changes one part of the state at most, and only ever adds to the history. What every step
preserves holds at the end of an expansion if it held at its beginning.
-/
namespace ShaderInline

variable {σ : Type}

/-- The file that an event has read. -/
def Event.found? : Event → Option Path
  | read path _ (.ok _) => some path
  | _ => none

/-- The file that an import line was answered with. -/
def Event.target? : Event → Option Path
  | resolved _ _ _ (.ok path) => some path
  | _ => none

/-- Whether an event takes the provider from `source` to `next`, with the answer that the provider
gives at `source`. -/
def Event.Takes (provider : Provider σ) (source next : σ) : Event → Prop
  | read path _ answer => provider.read path source = (answer, next)
  | resolved importText importer _ answer =>
    provider.resolve importText importer source = (answer, next)
  | _ => next = source

/-- Whether the provider, asked one question after the other from `start`, gives the answers in
these events and ends in `source`. -/
inductive Answers (provider : Provider σ) (start : σ) : List Event → σ → Prop where
  | nil : Answers provider start [] start
  | concat {events : List Event} {event : Event} {source next : σ}
      (h : Answers provider start events source) (hevent : event.Takes provider source next) :
      Answers provider start (events ++ [event]) next

theorem Answers.exists_takes {provider : Provider σ} {start source : σ} {events : List Event}
    {event : Event} (h : Answers provider start events source) (hmem : event ∈ events) :
    ∃ before after, event.Takes provider before after := by
  induction h with
  | nil => cases hmem
  | concat _ hevent ih =>
    rw [List.mem_append, List.mem_singleton] at hmem
    rcases hmem with hmem | rfl
    · exact ih hmem
    · exact ⟨_, _, hevent⟩

/-- Whether an event tells of a file or a block that was passed over. -/
def Event.IsSkip : Event → Prop
  | skippedFile _ | skippedGuard _ _ _ => True
  | _ => False

namespace Run

/-- What happened so far, in order. -/
def events (run : Run σ) : List Event := run.history.toList

/-- The files that were read, in order, without those that were asked for in vain. -/
def found (run : Run σ) : List Path := run.events.filterMap Event.found?

/-- The files that import lines led to, in order, whether or not they were read. -/
def targets (run : Run σ) : List Path := run.events.filterMap Event.target?

/-- Whether the content of a file was read. -/
def HasRead (run : Run σ) (file : Path) (content : String) : Prop :=
  ∃ depth, Event.read file depth (.ok content) ∈ run.events

/-- Whether a line of a file that was read has the given number and text. -/
def HasLine (run : Run σ) (file : Path) (number : Nat) (line : String) : Prop :=
  ∃ content, run.HasRead file content ∧ Text.line? content number = some line

def noted (run : Run σ) (event : Event) : Run σ :=
  { run with history := run.history.push event }

def asked (run : Run σ) (provider : Provider σ) (path : Path) (depth : Nat) : Run σ :=
  { run.noted (.read path depth (provider.read path run.source).1) with
    source := (provider.read path run.source).2 }

def guardedOnce (run : Run σ) (path : Path) : Run σ :=
  { run with state.onceGuards := run.state.onceGuards.insert path.components }

/-- The run in which the lines of a file that was just read are walked. -/
def begun (run : Run σ) (directives : Directives) (path : Path) (content : String) : Run σ :=
  if directives.guardsOnce (Text.lines content) then run.guardedOnce path else run

def remarked (run : Run σ) (remark : Remark) : Run σ :=
  { run.noted (.remarked remark) with state.remarks := run.state.remarks ++ [remark] }

/-- The run after the remark on an import line, if the line calls for one. -/
def remarkedOn (run : Run σ) (file : Path) (line : Nat) (importText : String) :
    Option String → Run σ
  | none => run
  | some trailing => run.remarked (.ignoredText file line importText trailing)

/-- The run after an import text was looked up. -/
def lookedUp (run : Run σ) (provider : Provider σ) (importText : String) (file : Path)
    (line : Nat) : Run σ :=
  { run.noted (.resolved importText file line
      (provider.resolve importText file run.source).1) with
    source := (provider.resolve importText file run.source).2 }

/-- The run in which an import line is answered. -/
def consulted (run : Run σ) (provider : Provider σ) (file : Path) (line : Nat)
    (importText : String) (trailing : Option String) : Run σ :=
  (run.remarkedOn file line importText trailing).lookedUp provider importText file line

def defined (run : Run σ) (name : String) : Run σ :=
  { run with state.namedGuards := run.state.namedGuards.insert name }

def completed (run : Run σ) (path : Path) (expanded : String) : Run σ :=
  { run with state.inlined := run.state.inlined.add path expanded }

@[simp] theorem events_noted (run : Run σ) (event : Event) :
    (run.noted event).events = run.events ++ [event] := by
  simp [events, noted]

@[simp] theorem events_asked (run : Run σ) (provider : Provider σ) (path : Path) (depth : Nat) :
    (run.asked provider path depth).events =
      run.events ++ [.read path depth (provider.read path run.source).1] := by
  simp [events, asked, noted]

theorem read_mem_asked {run : Run σ} {provider : Provider σ} {path : Path}
    {answer : Except String String} (h : (provider.read path run.source).1 = answer)
    (depth : Nat) : Event.read path depth answer ∈ (run.asked provider path depth).events := by
  simp [h]

@[simp] theorem events_begun (run : Run σ) (directives : Directives) (path : Path)
    (content : String) : (run.begun directives path content).events = run.events := by
  unfold begun
  split <;> rfl

@[simp] theorem events_lookedUp (run : Run σ) (provider : Provider σ) (importText : String)
    (file : Path) (line : Nat) :
    (run.lookedUp provider importText file line).events =
      run.events ++ [.resolved importText file line
        (provider.resolve importText file run.source).1] := by
  simp [events, lookedUp, noted]

theorem mem_events_consulted {run : Run σ} {provider : Provider σ} {file : Path} {line : Nat}
    {importText : String} {trailing : Option String} {event : Event} (hskip : event.IsSkip) :
    event ∈ (run.consulted provider file line importText trailing).events ↔
      event ∈ run.events := by
  have hlookedUp : ∀ {run : Run σ},
      event ∈ (run.lookedUp provider importText file line).events ↔ event ∈ run.events := by
    intro run
    rw [events_lookedUp, List.mem_append, List.mem_singleton]
    exact or_iff_left (by rintro rfl; exact hskip)
  cases trailing with
  | none => exact hlookedUp
  | some trailing =>
    refine hlookedUp.trans ?_
    change event ∈ (run.noted _).events ↔ _
    rw [events_noted, List.mem_append, List.mem_singleton]
    exact or_iff_left (by rintro rfl; exact hskip)

@[simp] theorem source_remarkedOn (run : Run σ) (file : Path) (line : Nat) (importText : String)
    (trailing : Option String) :
    (run.remarkedOn file line importText trailing).source = run.source := by
  cases trailing <;> rfl

/-- The part of the history that an event adds to the files read. -/
theorem reads_noted (run : Run σ) (event : Event) :
    (run.noted event).reads = run.reads ++ event.readPath?.toList := by
  cases h : event.readPath? <;> simp [reads, noted, h]

@[simp] theorem reads_noted_skippedFile (run : Run σ) (path : Path) :
    (run.noted (.skippedFile path)).reads = run.reads :=
  (run.reads_noted _).trans (List.append_nil _)

@[simp] theorem reads_noted_skippedGuard (run : Run σ) (name : String) (file : Path)
    (line : Nat) : (run.noted (.skippedGuard name file line)).reads = run.reads :=
  (run.reads_noted _).trans (List.append_nil _)

@[simp] theorem reads_asked (run : Run σ) (provider : Provider σ) (path : Path) (depth : Nat) :
    (run.asked provider path depth).reads = run.reads ++ [path] :=
  run.reads_noted _

@[simp] theorem reads_begun (run : Run σ) (directives : Directives) (path : Path)
    (content : String) : (run.begun directives path content).reads = run.reads := by
  unfold begun
  split <;> rfl

@[simp] theorem reads_remarkedOn (run : Run σ) (file : Path) (line : Nat) (importText : String)
    (trailing : Option String) :
    (run.remarkedOn file line importText trailing).reads = run.reads := by
  cases trailing with
  | none => rfl
  | some trailing => exact (run.reads_noted _).trans (List.append_nil _)

@[simp] theorem reads_lookedUp (run : Run σ) (provider : Provider σ) (importText : String)
    (file : Path) (line : Nat) :
    (run.lookedUp provider importText file line).reads = run.reads :=
  (run.reads_noted _).trans (List.append_nil _)

@[simp] theorem reads_completed (run : Run σ) (path : Path) (expanded : String) :
    (run.completed path expanded).reads = run.reads := rfl

theorem found_noted (run : Run σ) (event : Event) :
    (run.noted event).found = run.found ++ event.found?.toList := by
  cases h : event.found? <;> simp [found, h]

@[simp] theorem found_noted_skippedFile (run : Run σ) (path : Path) :
    (run.noted (.skippedFile path)).found = run.found :=
  (run.found_noted _).trans (List.append_nil _)

@[simp] theorem found_noted_skippedGuard (run : Run σ) (name : String) (file : Path)
    (line : Nat) : (run.noted (.skippedGuard name file line)).found = run.found :=
  (run.found_noted _).trans (List.append_nil _)

theorem found_asked_of_ok {run : Run σ} {provider : Provider σ} {path : Path} {content : String}
    (h : (provider.read path run.source).1 = .ok content) (depth : Nat) :
    (run.asked provider path depth).found = run.found ++ [path] := by
  simp [found, h, Event.found?]

theorem found_asked_of_error {run : Run σ} {provider : Provider σ} {path : Path} {cause : String}
    (h : (provider.read path run.source).1 = .error cause) (depth : Nat) :
    (run.asked provider path depth).found = run.found := by
  simp [found, h, Event.found?]

@[simp] theorem found_begun (run : Run σ) (directives : Directives) (path : Path)
    (content : String) : (run.begun directives path content).found = run.found := by
  simp [found]

@[simp] theorem found_remarkedOn (run : Run σ) (file : Path) (line : Nat) (importText : String)
    (trailing : Option String) :
    (run.remarkedOn file line importText trailing).found = run.found := by
  cases trailing with
  | none => rfl
  | some trailing => exact (run.found_noted _).trans (List.append_nil _)

@[simp] theorem found_lookedUp (run : Run σ) (provider : Provider σ) (importText : String)
    (file : Path) (line : Nat) :
    (run.lookedUp provider importText file line).found = run.found := by
  simp [found, Event.found?]

@[simp] theorem found_completed (run : Run σ) (path : Path) (expanded : String) :
    (run.completed path expanded).found = run.found := rfl

/-- What was read was asked for. -/
theorem found_sublist_reads (run : Run σ) : run.found.Sublist run.reads := by
  show (run.events.filterMap Event.found?).Sublist (run.events.filterMap Event.readPath?)
  induction run.events with
  | nil => exact List.Sublist.refl _
  | cons event events ih =>
    cases event with
    | read path depth answer =>
      cases answer with
      | ok content => exact ih.cons_cons path
      | error cause => exact ih.cons path
    | _ => exact ih

@[simp] theorem inlined_begun (run : Run σ) (directives : Directives) (path : Path)
    (content : String) : (run.begun directives path content).state.inlined = run.state.inlined := by
  unfold begun
  split <;> rfl

@[simp] theorem inlined_asked (run : Run σ) (provider : Provider σ) (path : Path) (depth : Nat) :
    (run.asked provider path depth).state.inlined = run.state.inlined := rfl

@[simp] theorem inlined_noted (run : Run σ) (event : Event) :
    (run.noted event).state.inlined = run.state.inlined := rfl

theorem resolved_mem_consulted {run : Run σ} {provider : Provider σ} {file : Path}
    {importText : String} {answer : Except String Path}
    (h : (provider.resolve importText file run.source).1 = answer) (line : Nat)
    (trailing : Option String) :
    Event.resolved importText file line answer ∈
      (run.consulted provider file line importText trailing).events := by
  unfold consulted
  simp [h]

theorem mem_targets_of_resolved {run : Run σ} {importText : String} {importer path : Path}
    {line : Nat} (h : Event.resolved importText importer line (.ok path) ∈ run.events) :
    path ∈ run.targets :=
  List.mem_filterMap.mpr ⟨_, h, rfl⟩

@[simp] theorem reads_consulted (run : Run σ) (provider : Provider σ) (file : Path)
    (line : Nat) (importText : String) (trailing : Option String) :
    (run.consulted provider file line importText trailing).reads = run.reads := by
  simp [consulted]

@[simp] theorem found_consulted (run : Run σ) (provider : Provider σ) (file : Path)
    (line : Nat) (importText : String) (trailing : Option String) :
    (run.consulted provider file line importText trailing).found = run.found := by
  simp [consulted]

@[simp] theorem inlined_consulted (run : Run σ) (provider : Provider σ) (file : Path)
    (line : Nat) (importText : String) (trailing : Option String) :
    (run.consulted provider file line importText trailing).state.inlined =
      run.state.inlined := by
  cases trailing <;> rfl

theorem guardedOnce_of_isGuarded {run : Run σ} {path : Path} (h : run.state.isGuarded path) :
    run.guardedOnce path = run := by
  unfold guardedOnce
  rw [GuardSet.insert_of_contains h]

theorem defined_of_contains {run : Run σ} {name : String}
    (h : run.state.namedGuards.contains name) : run.defined name = run := by
  unfold defined
  rw [GuardSet.insert_of_contains h]

/-- Whether the history holds what the provider has answered from `start` on. -/
def AnsweredBy (run : Run σ) (provider : Provider σ) (start : σ) : Prop :=
  Answers provider start run.events run.source

/-- An event without an answer leaves the provider as it is. -/
theorem AnsweredBy.noted {run : Run σ} {provider : Provider σ} {start : σ}
    (h : run.AnsweredBy provider start) {event : Event}
    (hevent : event.Takes provider run.source run.source) :
    (run.noted event).AnsweredBy provider start := by
  unfold Run.AnsweredBy
  rw [events_noted]
  exact .concat h hevent

/-- What an expansion can do to a run in one step. -/
inductive Step (provider : Provider σ) : Run σ → Run σ → Prop where
  | asked (run : Run σ) (path : Path) (depth : Nat) :
      Step provider run (run.asked provider path depth)
  | lookedUp (run : Run σ) (importText : String) (file : Path) (line : Nat) :
      Step provider run (run.lookedUp provider importText file line)
  | skippedFile (run : Run σ) (path : Path) : Step provider run (run.noted (.skippedFile path))
  | skippedGuard (run : Run σ) (name : String) (file : Path) (line : Nat) :
      Step provider run (run.noted (.skippedGuard name file line))
  | remarked (run : Run σ) (remark : Remark) : Step provider run (run.remarked remark)
  | guardedOnce {run : Run σ} {path : Path} (hread : path ∈ run.reads) :
      Step provider run (run.guardedOnce path)
  | defined (run : Run σ) (name : String) : Step provider run (run.defined name)
  | completed (run : Run σ) (path : Path) (expanded : String) :
      Step provider run (run.completed path expanded)

namespace Step

variable {run after : Run σ} {provider : Provider σ}

theorem events_prefix (h : Step provider run after) : run.events <+: after.events := by
  cases h with
  | asked => simp
  | lookedUp => simp
  | skippedFile => simp
  | skippedGuard => simp
  | remarked => simp [Run.remarked, events, noted]
  | guardedOnce | defined | completed => exact List.prefix_rfl

/-- The history of a run holds the answers of the provider. -/
theorem answeredBy {start : σ} (h : Step provider run after)
    (hrun : run.AnsweredBy provider start) : after.AnsweredBy provider start := by
  cases h with
  | asked =>
    unfold Run.AnsweredBy
    rw [events_asked]
    exact .concat hrun rfl
  | lookedUp =>
    unfold Run.AnsweredBy
    rw [events_lookedUp]
    exact .concat hrun rfl
  | skippedFile | skippedGuard => exact hrun.noted rfl
  | remarked => exact AnsweredBy.noted hrun rfl
  | guardedOnce | defined | completed => exact hrun

/-- The record changes by the completion of files only. -/
theorem isCoherent (h : Step provider run after) (hrun : run.state.inlined.IsCoherent) :
    after.state.inlined.IsCoherent := by
  cases h with
  | completed path expanded => exact hrun.add path expanded
  | asked | lookedUp | skippedFile | skippedGuard | remarked => exact hrun
  | guardedOnce | defined => exact hrun

end Step

/-- What an expansion can do to a run in any number of steps. -/
def Steps (provider : Provider σ) : Run σ → Run σ → Prop :=
  Relation.ReflTransGen (Step provider)

namespace Steps

variable {run after : Run σ} {provider : Provider σ}

/-- What every step preserves holds after all steps. -/
theorem preserve {P : Run σ → Prop} (h : Steps provider run after)
    (hstep : ∀ run after, Step provider run after → P run → P after) (hrun : P run) : P after := by
  induction h with
  | refl => exact hrun
  | tail _ hlast ih => exact hstep _ _ hlast ih

theorem trans {middle : Run σ} (h : Steps provider run middle)
    (hmore : Steps provider middle after) : Steps provider run after :=
  Relation.ReflTransGen.trans h hmore

theorem begun_of_mem_reads {path : Path} (hread : path ∈ run.reads) (directives : Directives)
    (content : String) : Steps provider run (run.begun directives path content) := by
  unfold Run.begun
  split
  · exact .single (.guardedOnce hread)
  · exact .refl

theorem begun (run : Run σ) (provider : Provider σ) (path : Path) (depth : Nat)
    (directives : Directives) (content : String) :
    Steps provider run ((run.asked provider path depth).begun directives path content) :=
  .head (.asked _ _ _) (begun_of_mem_reads (by simp) _ _)

theorem consulted (run : Run σ) (provider : Provider σ) (file : Path) (line : Nat)
    (importText : String) (trailing : Option String) :
    Steps provider run (run.consulted provider file line importText trailing) := by
  cases trailing with
  | none => exact .single (.lookedUp _ _ _ _)
  | some trailing => exact .head (.remarked _ _) (.single (.lookedUp _ _ _ _))

/-- The history of a run only grows. -/
theorem events_prefix (h : Steps provider run after) : run.events <+: after.events := by
  induction h with
  | refl => exact List.prefix_rfl
  | tail _ hstep ih => exact ih.trans hstep.events_prefix

theorem reads_prefix (h : Steps provider run after) : run.reads <+: after.reads :=
  h.events_prefix.filterMap _

theorem answeredBy {start : σ} (h : Steps provider run after)
    (hrun : run.AnsweredBy provider start) : after.AnsweredBy provider start :=
  h.preserve (fun _ _ hstep hanswered => hstep.answeredBy hanswered) hrun

theorem isCoherent (h : Steps provider run after) (hrun : run.state.inlined.IsCoherent) :
    after.state.inlined.IsCoherent :=
  h.preserve (P := fun run => run.state.inlined.IsCoherent)
    (fun _ _ hstep hcoherent => hstep.isCoherent hcoherent) hrun

end Steps

theorem events_prefix_consulted (run : Run σ) (provider : Provider σ) (file : Path) (line : Nat)
    (importText : String) (trailing : Option String) :
    run.events <+: (run.consulted provider file line importText trailing).events :=
  Steps.events_prefix (.consulted run provider file line importText trailing)

theorem HasRead.mono {run after : Run σ} {file : Path} {content : String}
    (h : run.HasRead file content) (hsub : run.events ⊆ after.events) :
    after.HasRead file content := by
  obtain ⟨depth, hmem⟩ := h
  exact ⟨depth, hsub hmem⟩

theorem HasRead.mem_reads {run : Run σ} {file : Path} {content : String}
    (h : run.HasRead file content) : file ∈ run.reads := by
  obtain ⟨depth, hmem⟩ := h
  exact List.mem_filterMap.mpr ⟨_, hmem, rfl⟩

theorem HasLine.mono {run after : Run σ} {file : Path} {number : Nat} {line : String}
    (h : run.HasLine file number line) (hsub : run.events ⊆ after.events) :
    after.HasLine file number line := by
  obtain ⟨content, hread, hline⟩ := h
  exact ⟨content, hread.mono hsub, hline⟩

end Run

namespace RunM

theorem note_apply (event : Event) (run : Run σ) :
    note event run = (.ok (), run.noted event) := rfl

theorem remark_apply (r : Remark) (run : Run σ) : remark r run = (.ok (), run.remarked r) := rfl

theorem enterOnce_apply (path : Path) (run : Run σ) :
    enterOnce path run = (.ok (!run.state.isGuarded path), run.guardedOnce path) := rfl

theorem define_apply (name : String) (run : Run σ) :
    define name run = (.ok (!run.state.namedGuards.contains name), run.defined name) := rfl

theorem read_of_ok {provider : Provider σ} {path : Path} {run : Run σ} {content : String}
    (h : (provider.read path run.source).1 = .ok content) (depth : Nat) :
    read provider path depth run = (.ok content, run.asked provider path depth) := by
  rw [read_apply, h]
  simp [Run.asked, Run.noted, h]

theorem read_of_error {provider : Provider σ} {path : Path} {run : Run σ} {cause : String}
    (h : (provider.read path run.source).1 = .error cause) (depth : Nat) :
    read provider path depth run =
      (.error (.failed (.unreadable path cause)), run.asked provider path depth) := by
  rw [read_apply, h]
  simp [Run.asked, Run.noted, h]

theorem resolve_of_ok {provider : Provider σ} {importText : String} {importer path : Path}
    {run : Run σ} (h : (provider.resolve importText importer run.source).1 = .ok path)
    (line : Nat) :
    resolve provider importText importer line run =
      (.ok path, run.lookedUp provider importText importer line) := by
  rw [resolve_apply, h]
  simp [Run.lookedUp, Run.noted, h]

theorem resolve_of_error {provider : Provider σ} {importText : String} {importer : Path}
    {run : Run σ} {cause : String}
    (h : (provider.resolve importText importer run.source).1 = .error cause) (line : Nat) :
    resolve provider importText importer line run =
      (.error (.failed
        (.imported importText importer line (.unreadable (Path.normal importText) cause))),
        run.lookedUp provider importText importer line) := by
  rw [resolve_apply, h]
  simp [Run.lookedUp, Run.noted, h]

end RunM

end ShaderInline
