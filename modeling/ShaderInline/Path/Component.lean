/-!
# Path components

A path is a sequence of components separated by slashes. A leading slash is the root. Empty
components, and single dots that do not begin the path, stand for nothing; a leading dot is a
component of its own.
-/
namespace ShaderInline

inductive Component where
  | root
  | current
  | parent
  | name (text : String)
  deriving DecidableEq, Repr

namespace Component

def text : Component → String
  | root => "/"
  | current => "."
  | parent => ".."
  | name text => text

/-- The stretches between slashes, empty ones included. -/
def segments : List Char → List (List Char)
  | [] => [[]]
  | c :: cs =>
    if c = '/' then [] :: segments cs
    else match segments cs with
      | [] => [[c]]
      | segment :: others => (c :: segment) :: others

/-- The component that a stretch inside a path stands for. -/
def ofSegment? (segment : List Char) : Option Component :=
  if segment = [] ∨ segment = ['.'] then none
  else if segment = ['.', '.'] then some parent
  else some (name (String.ofList segment))

/-- The components of a path, outermost first. -/
def ofChars (cs : List Char) : List Component :=
  let steps := (segments cs).filterMap ofSegment?
  if cs.head? = some '/' then root :: steps
  else if (segments cs).head? = some ['.'] then current :: steps
  else steps

/-- The text of a sequence of components. -/
def render : List Component → String
  | root :: steps => "/" ++ String.intercalate "/" (steps.map text)
  | steps => String.intercalate "/" (steps.map text)

end Component

end ShaderInline
