import ShaderInline.Directive.Basic
import ShaderInline.Text.Blank
import ShaderInline.Text.Word

/-!
# Include guards

A file carries a once guard when its first significant line is the once directive. A named guard
is opened by a line that tests that a name is undefined, directly followed by one that defines it,
and covers the lines up to the matching end of the conditional. All other conditionals are opaque
text, and matter only for the nesting of a block that is skipped.
-/
namespace ShaderInline

/-- Whether `text` begins with `start`. -/
def beginsWith (start text : String) : Bool := start.toList.isPrefixOf text.toList

/-- Whether a line without its surrounding blanks is more than a comment. -/
def isSignificant (trimmed : String) : Bool := trimmed != "" && !beginsWith "//" trimmed

/-- Whether the first significant line is the once directive. -/
def Directives.guardsOnce (directives : Directives) (lines : List String) : Bool :=
  (lines.map Text.trim).find? isSignificant = some directives.onceLine

/-- The name that a line tests to be undefined: a longest run of word characters, whatever may
follow it. -/
def testedName? (line : String) : Option String :=
  match "#ifndef".toList.isPrefixOf? (Text.trimChars line.toList) with
  | some (c :: cs) =>
    match Text.isBlank c, (cs.dropWhile Text.isBlank).takeWhile Text.isWord with
    | true, name@(_ :: _) => some (String.ofList name)
    | _, _ => none
  | _ => none

/-- The name of the guard that `line` opens when `following` are the lines after it. -/
def openedGuard? (line : String) (following : List String) : Option String :=
  match testedName? line, following with
  | some name, next :: _ => if Text.trim next = "#define " ++ name then some name else none
  | _, _ => none

/-- The nesting depth after a line that is met at a given depth. A depth is a natural number without
bound: a counter of 32 bits with a sign does the same as long as no more than `2 ^ 31 - 1`
conditionals are open at once. -/
def depthAfter (line : String) (depth : Nat) : Nat :=
  let trimmed := Text.trim line
  if beginsWith "#if" trimmed then depth + 1
  else if beginsWith "#endif" trimmed then depth - 1
  else depth

/-- How many of the lines belong to a conditional that is `depth` levels deep before them, where the
depth is counted without bound. The line that closes it is its last one. A conditional that is never
closed takes all of them. -/
def blockLength : Nat → List String → Nat
  | 0, _ => 0
  | _ + 1, [] => 0
  | depth + 1, line :: lines => blockLength (depthAfter line (depth + 1)) lines + 1
termination_by structural _ lines => lines

/-- The index of the first line after the conditional that is opened at index `opening`. -/
def blockEnd (lines : List String) (opening : Nat) : Nat :=
  opening + 1 + blockLength 1 (lines.drop (opening + 1))

end ShaderInline
