import ShaderInline.Batch.GuardSet
import ShaderInline.Batch.InlinedFiles
import ShaderInline.Batch.Remark

/-!
# The state of a batch

What outlives the expansion of a single file, and may outlive a whole call: the guards met so far,
the files inlined so far, and the remarks made. Once guards are kept by the components of their
files, because files are the same exactly when these are.
-/
namespace ShaderInline

structure BatchState where
  onceGuards : GuardSet (List Component) := {}
  namedGuards : GuardSet String := {}
  inlined : InlinedFiles := {}
  remarks : List Remark := []

/-- Whether the file carries a once guard that has been met. -/
def BatchState.isGuarded (state : BatchState) (path : Path) : Bool :=
  state.onceGuards.contains path.components

end ShaderInline
