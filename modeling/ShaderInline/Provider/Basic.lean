import ShaderInline.Path.Basic

/-!
# Providers

A provider finds and reads the files of an expansion. It may remember things in a source of its own
type, so the same question need not have the same answer twice.
-/
namespace ShaderInline

structure Provider (σ : Type) where
  /-- The file that an import text names in an importing file, or why there is none. -/
  resolve : String → Path → σ → Except String Path × σ
  /-- The content of a file, or why it cannot be read. -/
  read : Path → σ → Except String String × σ

namespace Provider

/-- A provider whose answers depend on the questions alone. -/
def steady (resolve : String → Path → Except String Path) (read : Path → Except String String) :
    Provider Unit where
  resolve importText importer source := (resolve importText importer, source)
  read path source := (read path, source)

/-- Whatever the provider can read is the same file as one of `readable`. -/
def ReadsAmong {σ : Type} (provider : Provider σ) (readable : List Path) : Prop :=
  ∀ path source content,
    (provider.read path source).1 = .ok content → ∃ known ∈ readable, known ≈ path

end Provider

end ShaderInline
