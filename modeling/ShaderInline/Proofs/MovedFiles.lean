import ShaderInline.Proofs.Libraries
import ShaderInline.Proofs.Subdirectories

/-!
# Moved files

A library whose files are moved below a directory, all of them together, is expanded as before. An
imported file is looked for from the directory of its importer, so an import line leads to the
counterpart of the file that it led to. That the paths are relative and made of names alone is
needed, since an absolute path does not move, and neither does one that leads out of the directory.
-/
namespace ShaderInline

open Component (AreNames)

/-- The counterparts of files below a directory. -/
def Translation.below (directory : List String) : Translation where
  path := Path.under directory
  cause path _ := "no such file: " ++ (path.under directory).text

def Origin.under (directory : List String) : Origin → Origin
  | source file line => source (file.under directory) line
  | generated => generated

def OutputLine.under (directory : List String) (line : OutputLine) : OutputLine :=
  ⟨line.text, line.origin.under directory⟩

/-- The same text, read from files below a directory. -/
def FlatText.under (directory : List String) (flat : FlatText) : FlatText :=
  ⟨flat.text, flat.origins.map (Origin.under directory)⟩

section Output

variable {directory : List String}

theorem OutputLine.map_under_generated (directory : List String) (text : String) :
    (generated text).map (under directory) = generated text := by
  simp [generated, under, Origin.under]

theorem OutputLine.map_under_closed (directory : List String) (lines : List OutputLine) :
    (closed lines).map (under directory) = closed (lines.map (under directory)) := by
  induction lines with
  | nil => rfl
  | cons line lines ih =>
    cases lines with
    | nil => rfl
    | cons next lines => exact congrArg (line.under directory :: ·) ih

/-- The markers name files by their last components, which stay the same. -/
theorem ExpansionTree.output_below (hdirectory : AreNames directory) {tree : ExpansionTree}
    (htree : tree.Holds (fun _ => True) (fun _ => True) Path.IsPlain) {file : Path}
    (hfile : file.IsPlain) (number : Nat) :
    ((Translation.below directory).tree tree).output (file.under directory) number =
      (tree.output file number).map (OutputLine.under directory) := by
  induction tree generalizing file number with
  | done => rfl
  | alreadyIncluded =>
    simp only [Translation.tree, output, includedMarker, Path.fileName_under hdirectory hfile,
      OutputLine.map_under_generated]
  | copied line opened rest ih =>
    exact congrArg (_ :: ·) (ih htree.2 hfile _)
  | skipped line rest ih => exact ih htree.2 hfile _
  | alreadyImported importText imported rest ih =>
    simp only [Translation.tree, output, importedMarker, List.map_append,
      OutputLine.map_under_generated, ih htree.2.2 hfile]
  | inlined importText imported content rest ihcontent ihrest =>
    obtain ⟨_, himported, hcontent, hrest⟩ := htree
    have hinside := ihcontent hcontent himported 1
    simp only [Translation.tree, output, beginMarker, endMarker, List.map_append,
      OutputLine.map_under_generated, OutputLine.map_under_closed, ihrest hrest hfile,
      Path.fileName_under hdirectory hfile, ← hinside]
    rfl

theorem ExpansionTree.flatten_below (hdirectory : AreNames directory) {tree : ExpansionTree}
    (htree : tree.Holds (fun _ => True) (fun _ => True) Path.IsPlain) {file : Path}
    (hfile : file.IsPlain) :
    ((Translation.below directory).tree tree).flatten (file.under directory) =
      (tree.flatten file).under directory := by
  rw [flatten, output_below hdirectory htree hfile, flatten, FlatText.ofLines, FlatText.ofLines,
    FlatText.under, List.map_map, List.map_map, List.map_map]
  rfl

end Output

/-- Whether a run below a directory has come as far as one on the files that were moved there. -/
structure Run.Moved (directory : List String) (run moved : Run Unit) : Prop where
  reads : moved.reads = run.reads.map (Path.under directory)
  isGuarded : ∀ path, path.IsPlain →
    moved.state.isGuarded (path.under directory) = run.state.isGuarded path
  namedGuards : moved.state.namedGuards = run.state.namedGuards
  inlined : ∀ path, path.IsPlain →
    moved.state.inlined.contains (path.under directory) = run.state.inlined.contains path

namespace Run.Moved

variable {directory : List String} {run moved : Run Unit} {path : Path}

theorem asked (h : run.Moved directory moved) (provider provider' : Provider Unit) (path : Path)
    (depth depth' : Nat) :
    (run.asked provider path depth).Moved directory
      (moved.asked provider' (path.under directory) depth') :=
  { h with reads := by simp [h.reads] }

theorem skippedFile (h : run.Moved directory moved) (path path' : Path) :
    (run.noted (.skippedFile path)).Moved directory (moved.noted (.skippedFile path')) :=
  { h with reads := by simp [h.reads] }

theorem skippedGuard (h : run.Moved directory moved) (name : String) (file file' : Path)
    (number : Nat) :
    (run.noted (.skippedGuard name file number)).Moved directory
      (moved.noted (.skippedGuard name file' number)) :=
  { h with reads := by simp [h.reads] }

theorem consulted (h : run.Moved directory moved) (provider provider' : Provider Unit)
    (file file' : Path) (line : Nat) (importText : String) (trailing : Option String) :
    (run.consulted provider file line importText trailing).Moved directory
      (moved.consulted provider' file' line importText trailing) := by
  have hreads : (moved.consulted provider' file' line importText trailing).reads =
      (run.consulted provider file line importText trailing).reads.map (Path.under directory) := by
    rw [reads_consulted, reads_consulted, h.reads]
  cases trailing <;> exact { h with reads := hreads }

theorem guardedOnce (h : run.Moved directory moved) (hdirectory : AreNames directory)
    (hpath : path.IsPlain) :
    (run.guardedOnce path).Moved directory (moved.guardedOnce (path.under directory)) :=
  { h with
    isGuarded := by
      intro other hother
      have hsame : (other.under directory).components = (path.under directory).components ↔
          other.components = path.components := Path.under_equiv_iff hdirectory hother hpath
      have hbefore := h.isGuarded other hother
      simp only [BatchState.isGuarded] at hbefore
      simp only [Run.guardedOnce, BatchState.isGuarded, GuardSet.contains_insert, hbefore, hsame] }

theorem begun (h : run.Moved directory moved) (hdirectory : AreNames directory)
    (hpath : path.IsPlain) (directives : Directives) (content : String) :
    (run.begun directives path content).Moved directory
      (moved.begun directives (path.under directory) content) := by
  unfold Run.begun
  split
  · exact h.guardedOnce hdirectory hpath
  · exact h

theorem defined (h : run.Moved directory moved) (name : String) :
    (run.defined name).Moved directory (moved.defined name) :=
  { h with namedGuards := by simp [Run.defined, h.namedGuards] }

theorem completed (h : run.Moved directory moved) (hdirectory : AreNames directory)
    (hpath : path.IsPlain) (expanded expanded' : String) :
    (run.completed path expanded).Moved directory
      (moved.completed (path.under directory) expanded') :=
  { h with
    inlined := by
      intro other hother
      simp only [Run.completed, InlinedFiles.contains_add, h.inlined other hother,
        Path.under_equiv_iff hdirectory hpath hother] }

end Run.Moved

section Library

variable {directory : List String} {files : List (String × String)} {directives : Directives}
  {text : String}

/-- The files as they are entered below a directory. -/
def filesUnder (directory : List String) (files : List (String × String)) :
    List (String × String) :=
  files.map (Prod.map (Path.textUnder directory) id)

theorem files_ofFiles_filesUnder (hdirectory : AreNames directory)
    (hfiles : ∀ file ∈ files, (Path.normal file.1).IsPlain) :
    (Library.ofFiles (filesUnder directory files)).files =
      (Library.ofFiles files).files.mapEntries (Path.under directory) id :=
  Library.files_ofFiles_map (fun file hmem => Path.normal_textUnder hdirectory (hfiles file hmem))
    fun file hfile other hother =>
      Path.under_equiv_iff hdirectory (hfiles other hother) (hfiles file hfile)

theorem read_ofFiles_filesUnder (hdirectory : AreNames directory)
    (hfiles : ∀ file ∈ files, (Path.normal file.1).IsPlain) {path : Path} (hpath : path.IsPlain) :
    (Library.ofFiles (filesUnder directory files)).read (path.under directory) =
      ((Library.ofFiles files).read path).mapError
        ((Translation.below directory).cause path) := by
  have hkeys : ∀ other ∈ (Library.ofFiles files).files.keys,
      (other.under directory ≈ path.under directory ↔ other ≈ path) := by
    intro other hmem
    obtain ⟨file, hfile, rfl⟩ := Library.mem_keys_ofFiles hmem
    exact Path.under_equiv_iff hdirectory (hfiles file hfile) hpath
  rw [Library.read_ofFiles, Library.read_ofFiles, files_ofFiles_filesUnder hdirectory hfiles,
    PathMap.get?_mapEntries hkeys]
  cases (Library.ofFiles files).files.get? path <;> rfl

theorem simulates_below {final : Run Unit} (hdirectory : AreNames directory)
    (hfiles : ∀ file ∈ files, (Path.normal file.1).IsPlain)
    (htargets : ∀ path ∈ final.targets, path.IsPlain) :
    (Translation.below directory).Simulates (Library.ofFiles files).provider directives
      (Library.ofFiles (filesUnder directory files)).provider directives final Path.IsPlain
      (Run.Moved directory) where
  line line := .of_trim rfl directives
  same hpath hother := Path.under_equiv_iff hdirectory hpath hother
  apart _ file hmem := by cases hmem
  unreadable := by
    intro run moved path cause depth hmoved hpath _ hread
    refine ⟨?_, hmoved.asked _ _ _ _ _⟩
    have hanswer := read_ofFiles_filesUnder hdirectory hfiles hpath
    have hmissing : (Library.ofFiles files).read path = .error cause := hread
    rw [hmissing] at hanswer
    exact hanswer
  read := by
    intro run moved path content depth hmoved hpath _ hread
    have hanswer := read_ofFiles_filesUnder hdirectory hfiles hpath
    have hfound : (Library.ofFiles files).read path = .ok content := hread
    rw [hfound] at hanswer
    refine ⟨content, hanswer, by simp [Translation.below], ?_, ?_, ?_⟩
    · exact and_congr_right fun _ => by rw [← hmoved.isGuarded path hpath]; rfl
    · exact (hmoved.asked _ _ _ _ _).skippedFile _ _
    · exact (hmoved.asked _ _ _ _ _).begun hdirectory hpath directives content
  unresolved := by
    intro run moved file number line importText trailing trailing' cause _ _ _ _ _ _ hresolve
    rw [Library.resolve_ofFiles] at hresolve
    cases hresolve
  resolved := by
    intro run moved file number line importText trailing trailing' path hmoved hfile hfinal _ hline
      hline' hresolve
    cases hline.symm.trans hline'
    have hpath := htargets path (Run.mem_targets_of_resolved
      (hfinal.events_prefix.subset (Run.resolved_mem_consulted hresolve number trailing)))
    rw [Library.resolve_ofFiles] at hresolve
    obtain rfl := Except.ok.inj hresolve
    refine ⟨?_, hpath, hmoved.inlined _ hpath, hmoved.consulted _ _ _ _ _ _ _⟩
    rw [Library.resolve_ofFiles]
    exact congrArg Except.ok (Path.resolve_under hdirectory hfile hpath)
  completed := by
    intro run moved importText file number path tree _ hmoved hpath _
    exact hmoved.completed hdirectory hpath _ _
  names hmoved _ := by rw [hmoved.namedGuards]
  defined name hmoved := hmoved.defined name
  skippedGuard name file number hmoved := hmoved.skippedGuard name file _ number

/-- A library below a directory comes to the same text or failure as where it was, with every path
in the directory, and reads the same files there. All its files have to be relative and made of
names alone, and so has every file that the expansion is led to. -/
theorem expand_filesUnder (hdirectory : AreNames directory)
    (hfiles : ∀ file ∈ files, (Path.normal file.1).IsPlain) (htop : (Path.normal text).IsPlain)
    (htargets : ∀ path ∈ ((Library.ofFiles files).expand directives text).run.targets,
      path.IsPlain) :
    let here := (Library.ofFiles files).expand directives text
    let there := (Library.ofFiles (filesUnder directory files)).expand directives
      (Path.textUnder directory text)
    there.result = (here.result.map (·.under directory)).mapError
        (Translation.below directory).failure ∧
      there.run.reads = here.run.reads.map (Path.under directory) := by
  intro here there
  have hlimit := Library.limit_of_mapEntries (files_ofFiles_filesUnder hdirectory hfiles)
  have htext := Path.normal_textUnder hdirectory htop
  obtain ⟨hresult, hend⟩ := Library.expand_translate
    (simulates_below hdirectory hfiles htargets) hlimit rfl htext htop
    ⟨rfl, fun _ _ => rfl, rfl, fun _ _ => rfl⟩
  refine ⟨?_, hend.reads⟩
  rcases hresult with ⟨tree, hhere, hthere, hyields⟩ | ⟨failure, hhere, hthere⟩
  · have hplain := hyields.holds List.prefix_rfl (fun _ _ _ _ => trivial) (fun _ _ _ _ _ => trivial)
      (fun _ _ _ path hevent _ _ => htargets path (Run.mem_targets_of_resolved hevent)) htop
    rw [htext, ExpansionTree.flatten_below hdirectory hplain htop] at hthere
    exact hthere.trans (by rw [hhere]; rfl)
  · exact hthere.trans (by rw [hhere]; rfl)

/-- A library with a file in a directory, which imports one from the directory above it. -/
def upwardImport : List (String × String) :=
  [("main", "#import \"lib/a\"\n#import \"./b\"\n"), ("lib/a", "#import \"../b\"\nint a;\n"),
    ("b", "int b;")]

theorem expand_filesUnder_upwardImport :
    let here := (Library.ofFiles upwardImport).expand {} "main"
    let there := (Library.ofFiles (filesUnder ["vendor", "ui"] upwardImport)).expand {}
      "vendor/ui/main"
    here.result.isOk ∧ here.run.reads = [⟨"main"⟩, ⟨"lib/a"⟩, ⟨"b"⟩] ∧
    there.result = (here.result.map (·.under ["vendor", "ui"])).mapError
      (Translation.below ["vendor", "ui"]).failure ∧
    there.run.reads = [⟨"vendor/ui/main"⟩, ⟨"vendor/ui/lib/a"⟩, ⟨"vendor/ui/b"⟩] := by
  intro here there
  have htargets : ∀ path ∈ here.run.targets, path.IsPlain := by decide +kernel
  have hreads : here.run.reads = [⟨"main"⟩, ⟨"lib/a"⟩, ⟨"b"⟩] := by decide +kernel
  have hdirectory : AreNames ["vendor", "ui"] := by decide +kernel
  have hfiles : ∀ file ∈ upwardImport, (Path.normal file.1).IsPlain := by decide +kernel
  have htop : (Path.normal "main").IsPlain := by decide +kernel
  obtain ⟨hresult, hmoved⟩ := expand_filesUnder hdirectory hfiles htop htargets
  exact ⟨by decide +kernel, hreads, hresult, hmoved.trans (by rw [hreads]; decide +kernel)⟩

end Library

end ShaderInline
