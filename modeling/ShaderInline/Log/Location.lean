import ShaderInline.Text.Blank
import ShaderInline.Text.DecimalDigit

/-!
# Locations in compiler logs

Compilers write the place of a message at the beginning of a line, in one of two forms. One is a
severity, the number of a source string and a line number, set off by colons. The other is the
number of the string followed by the line number in parentheses. The blanks after a severity may
run over the end of a line.
-/
namespace ShaderInline.Log

structure Location where
  /-- What stands in front of the place that is written for the location. -/
  label : List Char
  /-- The digits of the line number. -/
  line : List Char
  /-- The whole location as it stands in the log. -/
  written : List Char
  deriving DecidableEq, Repr

/-- A longest run of decimal digits, and what follows it. -/
def number? (cs : List Char) : Option (List Char × List Char) :=
  match cs.takeWhile Text.isDecimalDigit with
  | [] => none
  | digits => some (digits, cs.dropWhile Text.isDecimalDigit)

/-- The rest of a text that begins with `c`. -/
def after? (c : Char) : List Char → Option (List Char)
  | [] => none
  | d :: cs => if d = c then some cs else none

namespace Location

/-- A location such as `ERROR: 0:12`, with the given word for its severity. -/
def withSeverity? (severity : String) (cs : List Char) : Option Location := do
  let rest ← after? ':' (← severity.toList.isPrefixOf? cs)
  let blanks := rest.takeWhile Text.isBlank
  let (string, rest) ← number? (rest.dropWhile Text.isBlank)
  let (line, _) ← number? (← after? ':' rest)
  return {
    label := severity.toList ++ [':', ' ']
    line
    written := severity.toList ++ ':' :: blanks ++ string ++ ':' :: line }

def severe? (cs : List Char) : Option Location :=
  (withSeverity? "ERROR" cs).or (withSeverity? "WARNING" cs)

/-- A location such as `0(12)`. -/
def parenthesized? (cs : List Char) : Option Location := do
  let (string, rest) ← number? cs
  let (line, rest) ← number? (← after? '(' rest)
  let _ ← after? ')' rest
  return { label := [], line, written := string ++ '(' :: line ++ [')'] }

end Location

/-- The value of a line number. One that has digits other than the ASCII ones, or that does not
fit into sixty-four bits, has none. -/
def lineNumber? (digits : List Char) : Option Nat :=
  if digits.all Char.isDigit then
    let value := digits.foldl (fun value c => 10 * value + (c.toNat - '0'.toNat)) 0
    if value < UInt64.size then some value else none
  else none

end ShaderInline.Log
