import ShaderInline.Expansion.Call
import ShaderInline.Expansion.Limit

/-!
# Libraries

A library is a finite collection of files in memory. Its answers do not change during a call, and
its files cannot nest more deeply than their number, so a call on a library always ends in a text
or in a failure.
-/
namespace ShaderInline

structure Library where
  /-- The files that can be read, by the paths that name them. -/
  files : PathMap String := {}
  /-- The file that an import text names in an importing file. -/
  resolve : String → Path → Except String Path := fun importText importer =>
    .ok (importer.resolve importText)
  /-- Why a path that names none of the files cannot be read. -/
  missing : Path → String := fun path => "no such file: " ++ path.text

namespace Library

/-- Adds a file, in place of an earlier one of the same path. -/
def insert (library : Library) (text content : String) : Library :=
  { library with files := library.files.insert (Path.normal text) content }

/-- The library of the given files, entered in order. -/
def ofFiles (files : List (String × String)) : Library :=
  files.foldl (fun library (text, content) => library.insert text content) {}

/-- Answers some import texts apart from the rest, whatever file they stand in. Of several answers
for one text the last one counts. -/
def redirect (library : Library) (redirects : List (String × Except String Path)) : Library :=
  { library with
    resolve := fun importText importer =>
      (redirects.reverse.lookup importText).getD (library.resolve importText importer) }

/-- Refuses some paths, each for a reason of its own. -/
def refuse (library : Library) (refused : PathMap String) : Library :=
  { library with
    files := ⟨library.files.entries.filter fun entry => !refused.contains entry.1⟩
    missing := fun path => (refused.get? path).getD (library.missing path) }

def read (library : Library) (path : Path) : Except String String :=
  match library.files.get? path with
  | some content => .ok content
  | none => .error (library.missing path)

def provider (library : Library) : Provider Unit := .steady library.resolve library.read

/-- A limit of nesting that no call on the library meets. -/
def limit (library : Library) : Nat := library.files.size + 1

theorem readsAmong_keys (library : Library) :
    library.provider.ReadsAmong library.files.keys := by
  intro path _ content h
  change library.read path = .ok content at h
  unfold read at h
  split at h
  case h_1 found hfound => exact PathMap.exists_key_of_get? hfound
  case h_2 => cases h

theorem unopened_lt_limit (library : Library) (opened : OpenFiles) :
    unopened library.files.keys opened < library.limit := by
  refine Nat.lt_of_le_of_lt (List.length_filter_le _ _) ?_
  simp [limit, PathMap.keys, PathMap.size]

theorem result_ne_tooDeep (library : Library) (directives : Directives) (text : String)
    (opened : OpenFiles) (state : BatchState) :
    (library.provider.call directives library.limit text opened state ()).result ≠
      .error .tooDeep := by
  have h := staysShallow_expandFile library.readsAmong_keys directives library.limit opened
    (Path.normal text) (library.unopened_lt_limit opened) { source := (), state }
  intro hdeep
  apply h
  change Except.map _ (expandFile _ _ _ _ _ _).1 = _ at hdeep
  cases hresult : (expandFile library.provider directives library.limit opened (Path.normal text)
      { source := (), state }).1 with
  | ok tree => rw [hresult] at hdeep; cases hdeep
  | error stop => rw [hresult] at hdeep; cases hdeep; rfl

/-- Expands a path as written, as if it were imported by the innermost one of the open files. -/
def call (library : Library) (directives : Directives) (text : String) (opened : OpenFiles)
    (state : BatchState) : Outcome Unit Failure :=
  (library.provider.call directives library.limit text opened state ()).settled
    (library.result_ne_tooDeep directives text opened state)

/-- Expands a path on its own. -/
def expand (library : Library) (directives : Directives) (text : String) : Outcome Unit Failure :=
  library.call directives text {} {}

/-- Expands a path below the open files, from a fresh state. -/
def expandBelow (library : Library) (directives : Directives) (text : String)
    (opened : OpenFiles) : Outcome Unit Failure :=
  library.call directives text opened {}

/-- Expands a path of a batch, after the guards and the files that earlier calls have left. -/
def expandInBatch (library : Library) (directives : Directives) (text : String)
    (state : BatchState) : Outcome Unit Failure :=
  library.call directives text {} state

end Library

end ShaderInline
