import ShaderInline.Path.Basic
import ShaderInline.Text.Quoted

/-!
# Failures

Why a file could not be expanded. A failure inside an imported file carries the import lines that
led there, outermost first, and a root that is no import itself.
-/
namespace ShaderInline

inductive Failure where
  /-- The file was not found or not readable, for the reason that its provider gave. -/
  | unreadable (path : Path) (cause : String)
  /-- The files from the first one of a cycle through its repetition. -/
  | circular (chain : List Path)
  /-- A line that begins like an import and is none. -/
  | malformed (file : Path) (line : Nat) (text : String)
  /-- The failure of a file that is imported in `importer`. -/
  | imported (importText : String) (importer : Path) (line : Nat) (inner : Failure)
  deriving DecidableEq, Repr

namespace Failure

inductive Kind where
  | fileNotFound
  | circularImport
  | malformedDirective
  deriving DecidableEq, Repr

/-- The failure without the imports around it. -/
def root : Failure → Failure
  | imported _ _ _ inner => inner.root
  | failure => failure

def kind : Failure → Kind
  | unreadable _ _ => .fileNotFound
  | circular _ => .circularImport
  | malformed _ _ _ => .malformedDirective
  | imported _ _ _ inner => inner.kind

/-- The failure in one line, without what lies inside it. -/
def message : Failure → String
  | unreadable path cause => "shader file not found: " ++ path.text ++ " (" ++ cause ++ ")"
  | circular chain =>
    "circular import detected: " ++ String.intercalate " -> " (chain.map Path.text)
  | malformed file line text =>
    "invalid import syntax in " ++ file.text ++ " at line " ++ toString line ++ ": " ++ text
  | imported importText importer line _ =>
    "error importing " ++ Text.quoted importText ++ " from " ++ importer.text ++
      " (line " ++ toString line ++ ")"

/-- What lies inside a failure, outermost first, down to the reason that a provider gave. -/
def causes : Failure → List String
  | imported _ _ _ inner => inner.message :: inner.causes
  | unreadable _ cause => [cause]
  | _ => []

def indentation (depth : Nat) : String := String.ofList (List.replicate (2 * depth) ' ')

/-- The lines of the members of a cycle, each further to the right than the one before. -/
def chainLines : Nat → List Path → List String
  | _, [] => []
  | depth, path :: chain =>
    (indentation depth ++ "-> " ++ path.text) :: chainLines (depth + 1) chain

/-- The lines of a report that begins at a given depth. -/
def reportLines : Nat → Failure → List String
  | depth, failure@(imported _ _ _ inner) =>
    (indentation depth ++ failure.message) :: reportLines (depth + 1) inner
  | depth, circular chain =>
    (indentation depth ++ "circular import detected:") :: chainLines (depth + 1) chain
  | depth, failure => [indentation depth ++ failure.message]

/-- The failure over several lines, the outermost import first and the root last. -/
def report (failure : Failure) : String := String.intercalate "\n" (failure.reportLines 0)

/-- The cycle at the root, if there is one. -/
def chain? (failure : Failure) : Option (List Path) :=
  match failure.root with
  | circular chain => some chain
  | _ => none

end Failure

end ShaderInline
