import ShaderInline.Expansion.FlatText

/-!
# Expansion trees

What became of the lines of a file, from one of them on. Each constructor for a line accounts for
exactly one line of the file, so the lines are numbered by their places. An import that is inlined
holds the tree of the imported file. The flattened text is read off the tree.
-/
namespace ShaderInline

inductive ExpansionTree where
  /-- No lines are left. -/
  | done
  /-- The file's once guard had been met before, and none of its lines are looked at. -/
  | alreadyIncluded
  /-- The line is copied. It may open a named guard. -/
  | copied (line : String) (opened : Option String) (rest : ExpansionTree)
  /-- The line lies in a block whose guard had been opened before. -/
  | skipped (line : String) (rest : ExpansionTree)
  /-- The line imports a file that had been inlined before. -/
  | alreadyImported (importText : String) (file : Path) (rest : ExpansionTree)
  /-- The line imports a file that is inlined here. -/
  | inlined (importText : String) (file : Path) (content rest : ExpansionTree)
  deriving DecidableEq, Repr

namespace ExpansionTree

/-- The tree whose first line is an import. Without content the file had been inlined before. -/
def imported (importText : String) (file : Path) (content : Option ExpansionTree)
    (rest : ExpansionTree) : ExpansionTree :=
  match content with
  | none => alreadyImported importText file rest
  | some content => inlined importText file content rest

def includedMarker (file : Path) : List OutputLine :=
  OutputLine.generated ("// File already included: " ++ file.fileName ++ "\n")

def importedMarker (importText : String) : List OutputLine :=
  OutputLine.generated ("// Already imported: " ++ importText ++ "\n")

def beginMarker (importText : String) (importer : Path) : List OutputLine :=
  OutputLine.generated
    ("\n// BEGIN IMPORT: " ++ importText ++ " (from " ++ importer.fileName ++ ")\n")

def endMarker (importText : String) : List OutputLine :=
  OutputLine.generated ("// END IMPORT: " ++ importText ++ "\n\n")

/-- The output for the lines of `file` that begin at a given line number. A marker begins on a
line of its own, so an inlined text is closed before the marker that ends it. -/
def output (file : Path) : Nat → ExpansionTree → List OutputLine
  | _, done => []
  | _, alreadyIncluded => includedMarker file
  | number, copied line _ rest => ⟨line, .source file number⟩ :: output file (number + 1) rest
  | number, skipped _ rest => output file (number + 1) rest
  | number, alreadyImported importText _ rest =>
    importedMarker importText ++ output file (number + 1) rest
  | number, inlined importText imported content rest =>
    beginMarker importText file ++ OutputLine.closed (output imported 1 content) ++
      endMarker importText ++ output file (number + 1) rest

/-- The flattened text of a whole file. -/
def flatten (file : Path) (tree : ExpansionTree) : FlatText :=
  FlatText.ofLines (tree.output file 1)

end ExpansionTree

end ShaderInline
