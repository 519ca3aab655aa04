import ShaderInline.Text.ExtendingMark
import ShaderInline.Text.Unprintable

/-!
# Quoted text

A text between double quotes, written so that every character of it can be told apart by sight. A
quote, a backslash and the common control characters are written with a backslash, and whatever has
no visible form of its own as its code point.
-/
namespace ShaderInline.Text

/-- The code point of `c` in lower-case hexadecimal, between braces. -/
def codePointChars (c : Char) : List Char :=
  "\\u\x7b".toList ++ Nat.toDigits 16 c.toNat ++ "\x7d".toList

def quotedChars (c : Char) : List Char :=
  if c = '"' ∨ c = '\\' then ['\\', c]
  else if c = '\t' then ['\\', 't']
  else if c = '\n' then ['\\', 'n']
  else if c = '\r' then ['\\', 'r']
  else if c = '\x00' then ['\\', '0']
  else if isExtendingMark c || isUnprintable c then codePointChars c
  else [c]

/-- A text in quoted form. -/
def quoted (text : String) : String :=
  String.ofList ('"' :: text.toList.flatMap quotedChars ++ ['"'])

end ShaderInline.Text
