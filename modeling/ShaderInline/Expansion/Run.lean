import ShaderInline.Batch.State
import ShaderInline.Expansion.Failure
import ShaderInline.Path.Normal
import ShaderInline.Provider.Basic

/-!
# Runs

A run is what an expansion reads and changes on its way: the provider's source, the state of the
batch, and the history of what happened. All of it outlives a failure. The history holds every
answer of the provider, so that a result can be held against what was read.

A step of a run ends in a value or in a stop. The equations at the end say what the steps do to the
run they start from.
-/
namespace ShaderInline

inductive Event where
  /-- A file was asked for, at a nesting depth that counts the file itself. -/
  | read (path : Path) (depth : Nat) (answer : Except String String)
  /-- The text of an import line was looked up. -/
  | resolved (importText : String) (importer : Path) (line : Nat) (answer : Except String Path)
  | skippedFile (path : Path)
  /-- A block was passed over. It begins at a line that opens a guard opened before. -/
  | skippedGuard (name : String) (file : Path) (line : Nat)
  | remarked (remark : Remark)

namespace Event

/-- The message that is logged for an event, with its level in front. -/
def message? : Event → Option String
  | read path depth _ =>
    some ("DEBUG expanding " ++ path.text ++ " (depth " ++ toString depth ++ ")")
  | resolved _ _ _ _ => none
  | skippedFile path => some ("DEBUG skipping " ++ path.text ++ ": already included")
  | skippedGuard name file _ =>
    some ("DEBUG skipping " ++ name ++ " in " ++ file.text ++ ": guard already defined")
  | remarked remark => some ("WARN " ++ toString remark)

def readPath? : Event → Option Path
  | read path _ _ => some path
  | _ => none

end Event

structure Run (σ : Type) where
  source : σ
  state : BatchState := {}
  history : Array Event := #[]

namespace Run

variable {σ : Type}

/-- The files asked for, in order, readable or not. -/
def reads (run : Run σ) : List Path := run.history.toList.filterMap Event.readPath?

/-- The messages logged, in order. -/
def messages (run : Run σ) : List String := run.history.toList.filterMap Event.message?

end Run

/-- What ends a run before its text is complete. -/
inductive Stop where
  | failed (failure : Failure)
  /-- The files were nested more deeply than the run allowed. -/
  | tooDeep
  deriving DecidableEq, Repr

/-- The stop of an imported file as it is seen at the import line. -/
def Stop.imported (importText : String) (importer : Path) (line : Nat) : Stop → Stop
  | failed failure => failed (.imported importText importer line failure)
  | tooDeep => tooDeep

/-- A step of a run. -/
abbrev RunM (σ : Type) := ExceptT Stop (StateM (Run σ))

namespace RunM

variable {σ α β : Type}

def fail (failure : Failure) : RunM σ α := throw (.failed failure)

def note (event : Event) : RunM σ Unit :=
  modify fun run => { run with history := run.history.push event }

/-- Reads a file, which fails if the provider cannot. -/
def read (provider : Provider σ) (path : Path) (depth : Nat) : RunM σ String := do
  let run ← get
  let (answer, source) := provider.read path run.source
  set { run with source, history := run.history.push (.read path depth answer) }
  match answer with
  | .ok content => return content
  | .error cause => fail (.unreadable path cause)

/-- Looks up an import text. A failure names the normal form of the text, because there is no
file to name. -/
def resolve (provider : Provider σ) (importText : String) (importer : Path) (line : Nat) :
    RunM σ Path := do
  let run ← get
  let (answer, source) := provider.resolve importText importer run.source
  set { run with
    source, history := run.history.push (.resolved importText importer line answer) }
  match answer with
  | .ok path => return path
  | .error cause =>
    fail (.imported importText importer line (.unreadable (Path.normal importText) cause))

def remark (remark : Remark) : RunM σ Unit := do
  note (.remarked remark)
  modify fun run => { run with state.remarks := run.state.remarks ++ [remark] }

/-- Adds a once guard, and reports whether it is new. -/
def enterOnce (path : Path) : RunM σ Bool := do
  let known := (← get).state.isGuarded path
  modify fun run => { run with state.onceGuards := run.state.onceGuards.insert path.components }
  return !known

/-- Adds a named guard, and reports whether it is new. -/
def define (name : String) : RunM σ Bool := do
  let known := (← get).state.namedGuards.contains name
  modify fun run => { run with state.namedGuards := run.state.namedGuards.insert name }
  return !known

/-- Enters a file as inlined with an expanded text. -/
def complete (path : Path) (expanded : String) : RunM σ Unit :=
  modify fun run => { run with state.inlined := run.state.inlined.add path expanded }

/-- Runs a step for an imported file. -/
def within (importText : String) (importer : Path) (line : Nat) (step : RunM σ α) : RunM σ α :=
  ExceptT.adapt (Stop.imported importText importer line) step

theorem bind_apply (step : RunM σ α) (next : α → RunM σ β) (run : Run σ) :
    (step >>= next) run = match step run with
      | (.ok a, after) => next a after
      | (.error stop, after) => (.error stop, after) := by
  change (StateT.bind step (ExceptT.bindCont next) : StateM (Run σ) (Except Stop β)) run = _
  simp only [StateT.bind, bind]
  rcases step run with ⟨_ | _, _⟩ <;> rfl

theorem read_apply (provider : Provider σ) (path : Path) (depth : Nat) (run : Run σ) :
    read provider path depth run =
      (match (provider.read path run.source).1 with
        | .ok content => .ok content
        | .error cause => .error (.failed (.unreadable path cause)),
        { run with
          source := (provider.read path run.source).2
          history := run.history.push (.read path depth (provider.read path run.source).1) }) := by
  change (match (provider.read path run.source).1 with
    | .ok content => (pure content : RunM σ String)
    | .error cause => fail (.unreadable path cause)) _ = _
  cases (provider.read path run.source).1 <;> rfl

theorem resolve_apply (provider : Provider σ) (importText : String) (importer : Path) (line : Nat)
    (run : Run σ) :
    resolve provider importText importer line run =
      (match (provider.resolve importText importer run.source).1 with
        | .ok path => .ok path
        | .error cause => .error (.failed
            (.imported importText importer line (.unreadable (Path.normal importText) cause))),
        { run with
          source := (provider.resolve importText importer run.source).2
          history := run.history.push (.resolved importText importer line
            (provider.resolve importText importer run.source).1) }) := by
  change (match (provider.resolve importText importer run.source).1 with
    | .ok path => (pure path : RunM σ Path)
    | .error cause => fail
        (.imported importText importer line (.unreadable (Path.normal importText) cause))) _ = _
  cases (provider.resolve importText importer run.source).1 <;> rfl

theorem within_apply (importText : String) (importer : Path) (line : Nat) (step : RunM σ α)
    (run : Run σ) :
    within importText importer line step run = match step run with
      | (.ok a, after) => (.ok a, after)
      | (.error stop, after) => (.error (stop.imported importText importer line), after) := by
  change (StateT.map (Except.mapError _) step : StateM (Run σ) (Except Stop α)) run = _
  simp only [StateT.map, bind]
  rcases step run with ⟨_ | _, _⟩ <;> rfl

end RunM

end ShaderInline
