import ShaderInline.Directive.Basic
import ShaderInline.Text.Blank

/-!
# Import lines

Without its surrounding blanks, an import line is the import keyword, at least one blank, a path
between double quotes or between angle brackets, and any rest. The path is not empty and contains
neither a double quote nor a closing angle bracket. A line that begins with the keyword and is not
such a line is malformed.
-/
namespace ShaderInline

/-- What a line is to the import directive. -/
inductive ImportReading where
  /-- The line does not begin with the keyword. -/
  | absent
  /-- The path as written, and the text after the closing delimiter unless it is blank. -/
  | directive (path : String) (trailing : Option String)
  | malformed
  deriving DecidableEq, Repr

namespace ImportReading

def isPathChar (c : Char) : Bool := c != '"' && c != '>'

/-- The path up to the delimiter `close`, and what follows the delimiter. -/
def closedPath? (close : Char) (cs : List Char) : Option (List Char × List Char) :=
  match cs.takeWhile isPathChar, cs.dropWhile isPathChar with
  | path@(_ :: _), c :: rest => if c = close then some (path, rest) else none
  | _, _ => none

/-- The path between its delimiters, and what follows them. -/
def delimitedPath? : List Char → Option (List Char × List Char)
  | '"' :: cs => closedPath? '"' cs
  | '<' :: cs => closedPath? '>' cs
  | _ => none

/-- The path and the rest of what follows the keyword, the blanks between them included. -/
def operand? : List Char → Option (List Char × List Char)
  | c :: cs => if Text.isBlank c then delimitedPath? (cs.dropWhile Text.isBlank) else none
  | [] => none

/-- The text after an import, unless it is blank. -/
def trailing? (rest : List Char) : Option String :=
  match Text.trimChars rest with
  | [] => none
  | trimmed => some (String.ofList trimmed)

/-- Reads a line of source, with or without its terminator. -/
def ofLine (directives : Directives) (line : String) : ImportReading :=
  match directives.importKeyword.toList.isPrefixOf? (Text.trimChars line.toList) with
  | none => absent
  | some following =>
    match operand? following with
    | some (path, rest) => directive (String.ofList path) (trailing? rest)
    | none => malformed

end ImportReading

end ShaderInline
