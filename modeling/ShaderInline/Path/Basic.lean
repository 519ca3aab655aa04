import ShaderInline.Path.Component

/-!
# Paths

A path keeps the text it was written as. Two paths name the same file, written `p ≈ q`, when they
have the same components. Guards, records and the import stack compare paths in this sense alone.
-/
namespace ShaderInline

structure Path where
  text : String
  deriving DecidableEq, Repr

namespace Path

instance : ToString Path := ⟨Path.text⟩

def components (path : Path) : List Component := Component.ofChars path.text.toList

def NamesSame (p q : Path) : Prop := p.components = q.components

instance : Setoid Path where
  r := NamesSame
  iseqv := ⟨fun _ => rfl, fun h => Eq.symm h, fun h h' => Eq.trans h h'⟩

instance (p q : Path) : Decidable (p ≈ q) :=
  inferInstanceAs (Decidable (p.components = q.components))

@[simp] theorem equiv_refl (path : Path) : path ≈ path := rfl

theorem equiv_iff {p q : Path} : p ≈ q ↔ p.components = q.components := Iff.rfl

/-- The last component if it is a name, and else the whole text. -/
def fileName (path : Path) : String :=
  match path.components.getLast? with
  | some (.name name) => name
  | _ => path.text

/-- The components of the directory that holds `path`. The root lies in no directory. -/
def directory (path : Path) : List Component :=
  if path.components.getLast? = some .root then [] else path.components.dropLast

end Path

end ShaderInline
