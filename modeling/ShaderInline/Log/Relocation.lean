import ShaderInline.Expansion.FlatText
import ShaderInline.Log.Location

/-!
# Relocated logs

A compiler only sees the flattened text, and the line numbers in its log count the lines of that
text. The locations on lines that were copied from a file are replaced by the file and the line
there. All other text of the log is kept, the locations on generated lines included.
-/
namespace ShaderInline

namespace Log

/-- The place in a source file that a line of the flattened text was copied from. -/
def place? (flat : FlatText) (digits : List Char) : Option String :=
  match (lineNumber? digits).bind flat.origin? with
  | some (.source file line) => some (file.text ++ "(" ++ toString line ++ ")")
  | _ => none

/-- What is written for the location at the beginning of `cs`, and how many characters it
replaces. -/
def replacement? (flat : FlatText) (find : List Char → Option Location) (cs : List Char) :
    Option (List Char × Nat) := do
  let location ← find cs
  let place ← place? flat location.line
  return (location.label ++ place.toList, location.written.length)

/-- Replaces the locations that `find` recognises at the beginnings of lines, each where the one
before it has ended. The first `skip` characters have been replaced already. -/
def relocateFrom (flat : FlatText) (find : List Char → Option Location) :
    List Char → Bool → Nat → List Char
  | [], _, _ => []
  | _ :: cs, _, skip + 1 => relocateFrom flat find cs false skip
  | c :: cs, lineStart, 0 =>
    match if lineStart then replacement? flat find (c :: cs) else none with
    | some (new, length) => new ++ relocateFrom flat find cs false (length - 1)
    | none => c :: relocateFrom flat find cs (c = '\n') 0

/-- Replaces the locations of one form in a log. -/
def relocateForm (flat : FlatText) (find : List Char → Option Location) (log : String) : String :=
  String.ofList (relocateFrom flat find log.toList true 0)

/-- Replaces the locations of both forms, those with a severity first. -/
def relocate (flat : FlatText) (log : String) : String :=
  relocateForm flat Location.parenthesized? (relocateForm flat Location.severe? log)

end Log

/-- What a compiler hands back, together with its log if it wrote one. -/
structure Compiled (α : Type) where
  artifact : α
  log : Option String

/-- Compiles a flattened text, and relocates the log. -/
def FlatText.compileWith {α : Type} (flat : FlatText) (compiler : String → Compiled α) :
    Compiled α :=
  let compiled := compiler flat.text
  { compiled with log := compiled.log.map (Log.relocate flat) }

end ShaderInline
