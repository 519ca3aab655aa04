import ShaderInline.Path.Normal
import ShaderInline.Provider.Library

/-!
# File trees

Files on disk, as they are met by a program that runs in a working directory. A tree knows the
directories and files below its top, and of what lies above it or at the root only that these are
directories. A read walks the path one component at a time, and the first step that fails is the
error of the whole.
-/
namespace ShaderInline

/-- Why a file on disk cannot be read. -/
inductive ReadError where
  | nulInPath
  | nameTooLong
  | notFound
  | notADirectory
  | isADirectory
  | invalidText
  deriving DecidableEq, Repr

def ReadError.message : ReadError → String
  | nulInPath => "file name contained an unexpected NUL byte"
  | nameTooLong => "File name too long (os error 36)"
  | notFound => "No such file or directory (os error 2)"
  | notADirectory => "Not a directory (os error 20)"
  | isADirectory => "Is a directory (os error 21)"
  | invalidText => "stream did not contain valid UTF-8"

structure FileTree where
  /-- The names that lead from the top to the working directory. -/
  working : List String
  directories : List (List String) := []
  files : List (List String × ByteArray) := []

namespace FileTree

/-- Where a walk stands. -/
inductive Place where
  | inside (location : List String)
  /-- In a directory of which nothing more is known. -/
  | outside

/-- The longest path, in bytes with its terminator, and the longest name of a file in bytes. -/
def pathLimit : Nat := 4096

def nameLimit : Nat := 255

def isDirectory (tree : FileTree) (location : List String) : Bool :=
  location.isPrefixOf tree.working || tree.directories.contains location

def has (tree : FileTree) (location : List String) : Bool :=
  tree.isDirectory location || (tree.files.lookup location).isSome

/-- Adds a directory and those above it. -/
def insertDirectory (tree : FileTree) (location : List String) : FileTree :=
  { tree with
    directories := tree.directories ++ (List.range (location.length + 1)).map (location.take ·) }

/-- Adds a file and the directories above it, in place of an earlier one at the same location. -/
def insertFile (tree : FileTree) (location : List String) (content : ByteArray) : FileTree :=
  let tree := tree.insertDirectory location.dropLast
  { tree with files := (location, content) :: tree.files }

/-- The location of a path that is followed from the working directory without looking. -/
def locate (tree : FileTree) (text : String) : List String :=
  (Component.ofChars text.toList).foldl
    (fun location step => match step with
      | .root => []
      | .current => location
      | .parent => location.dropLast
      | .name name => location ++ [name])
    tree.working

def step (tree : FileTree) (place : Place) (component : Component) : Except ReadError Place :=
  match place, component with
  | _, .root => .ok .outside
  | .outside, .name name =>
    if nameLimit < name.utf8ByteSize then .error .nameTooLong else .error .notFound
  | .outside, _ => .ok .outside
  | .inside location, component =>
    if !tree.isDirectory location then .error .notADirectory
    else match component with
      | .name name =>
        let inner := location ++ [name]
        if nameLimit < name.utf8ByteSize then .error .nameTooLong
        else if tree.has inner then .ok (.inside inner)
        else .error .notFound
      | .parent => .ok (if location = [] then .outside else .inside location.dropLast)
      | _ => .ok place

/-- The place that a path leads to. -/
def find (tree : FileTree) (path : Path) : Except ReadError Place :=
  if path.text.toList.contains '\x00' then .error .nulInPath
  else if pathLimit ≤ path.text.utf8ByteSize then .error .nameTooLong
  else path.components.foldlM tree.step (.inside tree.working)

def read (tree : FileTree) (path : Path) : Except ReadError String := do
  match ← tree.find path with
  | .outside => throw .isADirectory
  | .inside location =>
    match tree.isDirectory location, tree.files.lookup location with
    | false, some content =>
      match String.fromUTF8? content with
      | some text => return text
      | none => throw .invalidText
    | _, _ => throw .isADirectory

/-- The paths in normal form that may lead to a location: each goes up from the working directory
as far as some directory that the location lies in, and then down. -/
def names (tree : FileTree) (location : List String) : List Path :=
  (List.range (tree.working.length + 1)).filterMap fun up =>
    let base := tree.working.take (tree.working.length - up)
    if base.isPrefixOf location then
      some (Path.ofComponents
        (List.replicate up .parent ++ (location.drop base.length).map .name))
    else none

/-- The readable files as a library: every file under each of its paths in normal form. Imports are
resolved to paths in normal form, so a call on the library asks for no others. -/
def library (tree : FileTree) : Library where
  files := ((tree.files.map (·.1)).flatMap tree.names).foldl
    (fun files path => match tree.read path with
      | .ok content => files.insert path content
      | .error _ => files)
    {}
  missing path := match tree.read path with
    | .ok _ => ReadError.notFound.message
    | .error reason => reason.message

end FileTree

end ShaderInline
