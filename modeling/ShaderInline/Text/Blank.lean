import ShaderInline.Text.CodePoint

/-!
# Blank characters and trimming

The blank characters are those with the Unicode property White_Space. A directive is recognised in
a line without its surrounding blanks, the line's terminator included.
-/
namespace ShaderInline.Text

def blankRanges : List (Nat × Nat) :=
  [(9, 13), (32, 32), (133, 133), (160, 160), (5760, 5760), (8192, 8202), (8232, 8233),
   (8239, 8239), (8287, 8287), (12288, 12288)]

def isBlank (c : Char) : Bool := inRanges blankRanges c

/-- The characters from the first nonblank one to the last one. -/
def trimChars (cs : List Char) : List Char :=
  ((cs.dropWhile isBlank).reverse.dropWhile isBlank).reverse

/-- A text without its surrounding blanks. -/
def trim (text : String) : String := String.ofList (trimChars text.toList)

end ShaderInline.Text
