import ShaderInline.Path.Basic
import ShaderInline.Text.Quoted

/-!
# Remarks

A remark concerns a line of source, and does not keep the file from being expanded.
-/
namespace ShaderInline

structure Remark where
  file : Path
  line : Nat
  message : String
  deriving DecidableEq, Repr

/-- The remark on the text that follows an import and is not acted on. -/
def Remark.ignoredText (file : Path) (line : Nat) (importText trailing : String) : Remark :=
  ⟨file, line, "ignored text after import of " ++ Text.quoted importText ++ ": " ++ trailing⟩

instance : ToString Remark where
  toString remark := remark.file.text ++ "(" ++ toString remark.line ++ "): " ++ remark.message

end ShaderInline
