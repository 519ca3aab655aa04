import ShaderInline.Path.Basic
import ShaderInline.Text.Line

/-!
# Flattened text

The text of an expansion together with the origin of each of its lines. Lines that were not copied
from a file are generated.
-/
namespace ShaderInline

inductive Origin where
  | source (file : Path) (line : Nat)
  | generated
  deriving DecidableEq, Repr

/-- A line of output with its terminator. Only the last line of a text may lack one. -/
structure OutputLine where
  text : String
  origin : Origin
  deriving DecidableEq, Repr

/-- The lines of a generated text. -/
def OutputLine.generated (text : String) : List OutputLine :=
  (Text.lines text).map (⟨·, .generated⟩)

/-- The lines with a terminator at the end of the last one. -/
def OutputLine.closed : List OutputLine → List OutputLine
  | [] => []
  | [line] => [⟨Text.terminated line.text, line.origin⟩]
  | line :: lines => line :: closed lines

structure FlatText where
  text : String := ""
  origins : List Origin := []
  deriving DecidableEq, Repr

namespace FlatText

def ofLines (lines : List OutputLine) : FlatText :=
  ⟨String.join (lines.map (·.text)), lines.map (·.origin)⟩

def lineCount (flat : FlatText) : Nat := flat.origins.length

/-- The origin of a line, counted from one. -/
def origin? (flat : FlatText) : Nat → Option Origin
  | 0 => none
  | index + 1 => flat.origins[index]?

end FlatText

end ShaderInline
