import Mathlib.Logic.Relation
import ShaderInline.Proofs.FailureTrail

/-!
# The graph of imports

A provider that always gives the same answers, and the same ones for all paths that name a file,
stands for a graph of files. A failing call has walked along this graph, and its trail shows which
file of the graph is missing or wrong, or that there is a cycle. If nothing of this kind can be
reached from a file, then a call on it succeeds.
-/
namespace ShaderInline

open Relation

variable {σ : Type}

/-- Files by the components of their paths: what they contain, and where their imports lead. -/
structure SourceFiles where
  content? : List Component → Option String
  target? : String → List Component → Option (List Component)

/-- Whether the answers of the provider depend on the import text and the files alone. -/
structure Provider.Serves (provider : Provider σ) (files : SourceFiles) : Prop where
  read : ∀ path source, (provider.read path source).1.toOption = files.content? path.components
  resolve : ∀ importText importer source,
    (provider.resolve importText importer source).1.toOption.map Path.components =
      files.target? importText importer.components

namespace Provider.Serves

variable {provider : Provider σ} {files : SourceFiles} {path importer : Path} {source : σ}
  {content importText : String}

theorem content?_of_ok (h : provider.Serves files)
    (hread : (provider.read path source).1 = .ok content) :
    files.content? path.components = some content := by
  rw [← h.read path source, hread]
  rfl

theorem target?_of_ok (h : provider.Serves files)
    (hresolve : (provider.resolve importText importer source).1 = .ok path) :
    files.target? importText importer.components = some path.components := by
  rw [← h.resolve importText importer source, hresolve]
  rfl

end Provider.Serves

/-- The files of a library in which imports are followed from the directory of the importer. -/
def Library.sourceFiles (library : Library) : SourceFiles where
  content? file := (library.files.entries.find? fun entry => entry.1.components = file).map (·.2)
  target? importText file :=
    let directory := if file.getLast? = some .root then [] else file.dropLast
    some (if importText.toList.head? = some '/' then Path.normal importText
      else Path.ofComponents (directory ++ Component.ofChars importText.toList)).components

namespace Library

theorem serves (library : Library)
    (hresolve : library.resolve = fun importText importer => .ok (importer.resolve importText)) :
    library.provider.Serves library.sourceFiles where
  read := by
    intro path source
    show (library.read path).toOption = library.files.get? path
    unfold read
    split
    case h_1 hfound => exact hfound.symm
    case h_2 hmissing => exact hmissing.symm
  resolve := by
    intro importText importer source
    show (library.resolve importText importer).toOption.map Path.components = _
    rw [hresolve]
    rfl

theorem exists_entry_of_content? {library : Library} {file : List Component} {content : String}
    (h : content ∈ library.sourceFiles.content? file) :
    ∃ entry ∈ library.files.entries, entry.2 = content := by
  obtain ⟨entry, hfound, hcontent⟩ := Option.map_eq_some_iff.mp h
  exact ⟨entry, List.mem_of_find?_eq_some hfound, hcontent⟩

end Library

/-- The path that an import line holds. -/
def ImportReading.importText? (directives : Directives) (line : String) : Option String :=
  match ofLine directives line with
  | .directive importText _ => some importText
  | _ => none

theorem ImportReading.importText?_of_directive {directives : Directives} {line importText : String}
    {trailing : Option String} (h : ofLine directives line = .directive importText trailing) :
    importText? directives line = some importText := by
  simp [importText?, h]

/-- Whether some line is taken for the beginning of a named guard. -/
def Directives.OpensGuard (directives : Directives) (lines : List String) : Prop :=
  ∃ before line following, lines = before ++ line :: following ∧
    ImportReading.ofLine directives line = .absent ∧ (openedGuard? line following).isSome

theorem Directives.not_opensGuard {directives : Directives} {lines : List String}
    (h : ∀ line ∈ lines, testedName? line = none) : ¬ directives.OpensGuard lines := by
  rintro ⟨before, line, following, rfl, _, hopened⟩
  have hnone := h line (by simp)
  simp [openedGuard?, hnone] at hopened

namespace SourceFiles

/-- Whether no file opens a named guard. -/
def IsUnguarded (files : SourceFiles) (directives : Directives) : Prop :=
  ∀ file, ∀ content ∈ files.content? file, ¬ directives.OpensGuard (Text.lines content)

/-- Where the import lines among some lines of a file lead. -/
def targets (files : SourceFiles) (directives : Directives) (file : List Component)
    (lines : List String) : List (List Component) :=
  (lines.filterMap (ImportReading.importText? directives)).filterMap (files.target? · file)

/-- The files that a file imports, in the order of its import lines. -/
def imports (files : SourceFiles) (directives : Directives) (file : List Component) :
    List (List Component) :=
  files.targets directives file (Text.lines ((files.content? file).getD ""))

def Imports (files : SourceFiles) (directives : Directives) (file imported : List Component) :
    Prop :=
  imported ∈ files.imports directives file

def Reachable (files : SourceFiles) (directives : Directives) (top file : List Component) : Prop :=
  ReflTransGen (files.Imports directives) top file

/-- Whether none of the lines is malformed, and every import among them can be looked up. -/
def AreSound (files : SourceFiles) (directives : Directives) (file : List Component)
    (lines : List String) : Prop :=
  ∀ line ∈ lines, ImportReading.ofLine directives line ≠ .malformed ∧
    ∀ importText ∈ ImportReading.importText? directives line,
      (files.target? importText file).isSome

/-- Whether a file is readable and its lines are sound. -/
def IsSound (files : SourceFiles) (directives : Directives) (file : List Component) : Prop :=
  ∃ content, files.content? file = some content ∧
    files.AreSound directives file (Text.lines content)

/-- Whether every file that can be reached is sound and none imports itself in the end. -/
structure IsComplete (files : SourceFiles) (directives : Directives) (top : List Component) :
    Prop where
  sound : ∀ file, files.Reachable directives top file → files.IsSound directives file
  acyclic : ∀ file, files.Reachable directives top file →
    ¬ TransGen (files.Imports directives) file file

end SourceFiles

section Answers

variable {provider : Provider σ} {files : SourceFiles} {directives : Directives} {run : Run σ}
  {start : σ} (hserves : provider.Serves files) (hanswered : run.AnsweredBy provider start)

include hserves hanswered

theorem content?_of_read {path : Path} {depth : Nat} {answer : Except String String}
    (h : Event.read path depth answer ∈ run.events) :
    files.content? path.components = answer.toOption := by
  obtain ⟨source, next, hanswer⟩ := hanswered.exists_takes h
  have hread : provider.read path source = (answer, next) := hanswer
  rw [← hserves.read path source, hread]

theorem target?_of_resolved {importText : String} {importer : Path} {line : Nat}
    {answer : Except String Path}
    (h : Event.resolved importText importer line answer ∈ run.events) :
    files.target? importText importer.components = answer.toOption.map Path.components := by
  obtain ⟨source, next, hanswer⟩ := hanswered.exists_takes h
  have hresolve : provider.resolve importText importer source = (answer, next) := hanswer
  rw [← hserves.resolve importText importer source, hresolve]

theorem content?_of_hasRead {file : Path} {content : String} (h : run.HasRead file content) :
    files.content? file.components = some content := by
  obtain ⟨depth, hmem⟩ := h
  exact content?_of_read hserves hanswered hmem

theorem exists_content_of_hasLine {file : Path} {number : Nat} {line : String}
    (h : run.HasLine file number line) :
    ∃ content, files.content? file.components = some content ∧ line ∈ Text.lines content := by
  obtain ⟨content, hread, hline⟩ := h
  exact ⟨content, content?_of_hasRead hserves hanswered hread, Text.mem_lines_of_line? hline⟩

theorem SourceFiles.IsSound.of_hasLine {file : Path} {number : Nat} {line : String}
    (h : files.IsSound directives file.components) (hline : run.HasLine file number line) :
    ImportReading.ofLine directives line ≠ .malformed ∧
      ∀ importText ∈ ImportReading.importText? directives line,
        (files.target? importText file.components).isSome := by
  obtain ⟨content, hcontent, hmem⟩ := exists_content_of_hasLine hserves hanswered hline
  obtain ⟨other, hother, hsound⟩ := h
  obtain rfl := Option.some.inj (hcontent.symm.trans hother)
  exact hsound line hmem

end Answers

section Trails

variable {provider : Provider σ} {files : SourceFiles} {directives : Directives} {run : Run σ}
  {start : σ} {top : Path} {sites : List ImportSite} {root : Failure}
  (hserves : provider.Serves files) (hanswered : run.AnsweredBy provider start)

include hserves hanswered

theorem imports_of_answered {site : ImportSite} {path : Path}
    (himport : site.WasRead directives run)
    (hanswer : site.answered (.ok path) ∈ run.events) :
    files.Imports directives site.importer.components path.components := by
  obtain ⟨line, trailing, hline, hreading⟩ := himport
  obtain ⟨content, hcontent, hmem⟩ := exists_content_of_hasLine hserves hanswered hline
  have htext := ImportReading.importText?_of_directive hreading
  have htarget := target?_of_resolved hserves hanswered hanswer
  rw [SourceFiles.Imports, SourceFiles.imports, hcontent]
  have hwritten := List.mem_filterMap.mpr ⟨line, hmem, htext⟩
  exact List.mem_filterMap.mpr ⟨site.importText, hwritten, htarget⟩

/-- A trail is a path in the graph. -/
theorem transGen_of_arrivesAt {site : ImportSite} {path : Path}
    (himports : ∀ other ∈ site :: sites, other.WasRead directives run)
    (hlinked : (site :: sites).IsChain fun site next =>
      site.answered (.ok next.importer) ∈ run.events)
    (harrives : ArrivesAt run top (site :: sites) path) :
    TransGen (files.Imports directives) site.importer.components path.components := by
  induction sites generalizing site with
  | nil => exact .single (imports_of_answered hserves hanswered (himports _ (by simp)) harrives)
  | cons next sites ih =>
    obtain ⟨hanswer, hlinked⟩ := List.isChain_cons_cons.mp hlinked
    have hstep := imports_of_answered hserves hanswered (himports _ (by simp)) hanswer
    refine .head hstep (ih ?_ hlinked ?_)
    · intro other hmem
      exact himports other (List.mem_cons_of_mem _ hmem)
    · rwa [ArrivesAt, List.getLast?_cons_cons] at harrives

variable (htrail : Trail directives run {} top sites root)

include htrail

theorem reachable_of_arrivesAt {path : Path} (harrives : ArrivesAt run top sites path) :
    files.Reachable directives top.components path.components := by
  cases sites with
  | nil =>
    obtain rfl : path = top := harrives
    exact .refl
  | cons site sites =>
    have hpath := transGen_of_arrivesAt hserves hanswered htrail.imports htrail.linked harrives
    rw [htrail.starts site rfl] at hpath
    exact hpath.to_reflTransGen

theorem reachable_importer {earlier later : List ImportSite} {site : ImportSite}
    (hsites : sites = earlier ++ site :: later) :
    files.Reachable directives top.components site.importer.components := by
  subst hsites
  cases earlier with
  | nil =>
    rw [htrail.starts site rfl]
    exact .refl
  | cons first earlier =>
    obtain ⟨hlinked, _, hnext⟩ := List.isChain_append.mp htrail.linked
    have himports : ∀ other ∈ first :: earlier, other.WasRead directives run := by
      intro other hmem
      exact htrail.imports other (List.mem_append_left _ hmem)
    have harrives : ArrivesAt run top (first :: earlier) site.importer := by
      cases hlast : (first :: earlier).getLast? with
      | none => simp at hlast
      | some last =>
        rw [ArrivesAt, hlast]
        exact hnext last hlast site rfl
    have hpath := transGen_of_arrivesAt hserves hanswered himports hlinked harrives
    rw [htrail.starts first rfl] at hpath
    exact hpath.to_reflTransGen

/-- No call leaves a trail in a complete graph. -/
theorem SourceFiles.IsComplete.not_trail (h : files.IsComplete directives top.components) :
    False := by
  cases htrail.ends with
  | unresolved hlast hanswer =>
    obtain ⟨earlier, hsites⟩ := List.getLast?_eq_some_iff.mp hlast
    have hreachable := reachable_importer hserves hanswered htrail hsites
    obtain ⟨line, trailing, hline, hreading⟩ := htrail.imports _ (List.mem_of_getLast? hlast)
    obtain ⟨_, hlookups⟩ := (h.sound _ hreachable).of_hasLine hserves hanswered hline
    have hresolved := hlookups _ (ImportReading.importText?_of_directive hreading)
    rw [target?_of_resolved hserves hanswered hanswer] at hresolved
    cases hresolved
  | unreadable harrives hanswer =>
    have hreachable := reachable_of_arrivesAt hserves hanswered htrail harrives
    obtain ⟨content, hcontent, _⟩ := h.sound _ hreachable
    rw [content?_of_read hserves hanswered hanswer] at hcontent
    cases hcontent
  | malformed harrives hline hreading =>
    have hreachable := reachable_of_arrivesAt hserves hanswered htrail harrives
    obtain ⟨hformed, _⟩ := (h.sound _ hreachable).of_hasLine hserves hanswered hline
    exact hformed hreading
  | @circular _ _ _ path harrives hopen hsame _ =>
    obtain ⟨earlier, rest, hsites, _, hrest⟩ := List.map_eq_append_iff.mp hopen
    obtain ⟨site, later, rfl, rfl, _⟩ := List.map_eq_cons_iff.mp hrest
    have hreachable := reachable_importer hserves hanswered htrail hsites
    subst hsites
    have himports : ∀ other ∈ site :: later, other.WasRead directives run := by
      intro other hmem
      exact htrail.imports other (List.mem_append_right _ hmem)
    obtain ⟨_, hlinked, _⟩ := List.isChain_append.mp htrail.linked
    have hreturns : ArrivesAt run top (site :: later) path := by
      rwa [ArrivesAt, List.getLast?_append_cons] at harrives
    have hcycle := transGen_of_arrivesAt hserves hanswered himports hlinked hreturns
    rw [← Path.equiv_iff.mp hsame] at hcycle
    exact h.acyclic _ hreachable hcycle

end Trails

end ShaderInline
