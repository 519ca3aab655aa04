import ShaderInline.Directive.Guard
import ShaderInline.Directive.Import
import ShaderInline.Expansion.OpenFiles
import ShaderInline.Expansion.Run
import ShaderInline.Expansion.Tree

/-!
# Expanding a file

The lines of a file are walked in order. An import line is replaced by the expansion of the file it
names, unless that file has been inlined before, and a block whose named guard has been opened
before is passed over. A file that is open is never taken for one that has been inlined, so that a
cycle of imports is always found.

The nesting of files is bounded by an explicit limit, since a provider may serve new files without
end.
-/
namespace ShaderInline

variable {σ : Type}

/-- What a walk knows of the file it is in, which is the innermost one of the open files. -/
structure Site (σ : Type) where
  provider : Provider σ
  directives : Directives
  opened : OpenFiles
  file : Path

namespace Site

/-- Remarks on the text after an import. -/
def remark (site : Site σ) (line : Nat) (importText : String) : Option String → RunM σ Unit
  | none => return ()
  | some trailing => RunM.remark (.ignoredText site.file line importText trailing)

/-- Whether a file need not be inlined again. -/
def isComplete (site : Site σ) (path : Path) : RunM σ Bool := do
  let run ← get
  return !site.opened.contains path && run.state.inlined.contains path

/-- Inlines an imported file, which `child` expands. -/
def inlineFile (site : Site σ) (child : Path → RunM σ ExpansionTree) (line : Nat)
    (importText : String) (path : Path) : RunM σ ExpansionTree := do
  let tree ← RunM.within importText site.file line (child path)
  RunM.complete path (tree.flatten path).text
  return tree

/-- Acts on an import line. Returns the file that is imported, with its tree unless it has been
inlined before. -/
def importFile (site : Site σ) (child : Path → RunM σ ExpansionTree) (line : Nat)
    (importText : String) (trailing : Option String) : RunM σ (Path × Option ExpansionTree) := do
  site.remark line importText trailing
  let path ← RunM.resolve site.provider importText site.file line
  if ← site.isComplete path then
    return (path, none)
  else
    return (path, some (← site.inlineFile child line importText path))

/-- Walks the lines that begin at a given line number. The first `skip` of them lie in a block
that is passed over. -/
def walk (site : Site σ) (child : Path → RunM σ ExpansionTree) :
    List String → Nat → Nat → RunM σ ExpansionTree
  | [], _, _ => return .done
  | line :: lines, number, skip + 1 => do
      return .skipped line (← walk site child lines (number + 1) skip)
  | line :: lines, number, 0 =>
    match ImportReading.ofLine site.directives line with
    | .directive importText trailing => do
        let (path, content) ← site.importFile child number importText trailing
        return .imported importText path content (← walk site child lines (number + 1) 0)
    | .malformed => RunM.fail (.malformed site.file number (Text.trim line))
    | .absent =>
      match openedGuard? line lines with
      | none => do
          return .copied line none (← walk site child lines (number + 1) 0)
      | some name => do
          if ← RunM.define name then
            return .copied line (some name) (← walk site child lines (number + 1) 0)
          else
            RunM.note (.skippedGuard name site.file number)
            return .skipped line
              (← walk site child lines (number + 1) (blockLength 1 lines))

end Site

/-- Expands a file below the open ones. `limit` bounds how many files may be nested. -/
def expandFile (provider : Provider σ) (directives : Directives) :
    Nat → OpenFiles → Path → RunM σ ExpansionTree
  | 0, _, _ => throw .tooDeep
  | limit + 1, opened, path =>
    match opened.enter path with
    | .error chain => RunM.fail (.circular chain)
    | .ok opened => do
        let content ← RunM.read provider path opened.size
        let lines := Text.lines content
        let site : Site σ := ⟨provider, directives, opened, path⟩
        if directives.guardsOnce lines then
          if ← RunM.enterOnce path then
            site.walk (expandFile provider directives limit opened) lines 1 0
          else
            RunM.note (.skippedFile path)
            return .alreadyIncluded
        else
          site.walk (expandFile provider directives limit opened) lines 1 0

end ShaderInline
