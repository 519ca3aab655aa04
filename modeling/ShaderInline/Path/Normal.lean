import ShaderInline.Path.Basic

/-!
# Normal form

The normal form of a path is found from its text alone. Dots are dropped and a parent component
cancels the name before it. The root is its own parent, and parents that have nothing to cancel
stay in front of a relative path. Where nothing remains the path is a single dot.
-/
namespace ShaderInline

namespace Component

/-- Extends a walk by one component. The walk is listed innermost component first. -/
def follow : List Component → Component → List Component
  | trail, current => trail
  | name _ :: trail, parent => trail
  | root :: trail, parent => root :: trail
  | trail, step => step :: trail

/-- The components of the normal form. -/
def normalize (steps : List Component) : List Component :=
  match steps.foldl follow [] with
  | [] => [current]
  | trail => trail.reverse

end Component

namespace Path

/-- The path in normal form that has the given components before normalization. -/
def ofComponents (steps : List Component) : Path :=
  ⟨Component.render (Component.normalize steps)⟩

/-- The identity of a file: the normal form of a path as written. -/
def normal (text : String) : Path := ofComponents (Component.ofChars text.toList)

/-- Where an import in `importer` leads: an absolute path stands for itself, and any other is
followed from the directory of the importing file. -/
def resolve (importer : Path) (importText : String) : Path :=
  if importText.toList.head? = some '/' then normal importText
  else ofComponents (importer.directory ++ Component.ofChars importText.toList)

end Path

end ShaderInline
