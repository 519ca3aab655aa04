import Mathlib.Data.List.Chain
import ShaderInline.Proofs.Calls
import ShaderInline.Provider.Library

/-!
# The trail to a failure

A failure names the import lines that led to it, outermost first, and a root. The trail is held
against the history of the call: every import line on it stands in a file that was read, the lookup
of each one gave the file in which the next one stands, and the root is what happened at its end.
-/
namespace ShaderInline

variable {σ : Type}

/-- An import line, by the file it stands in and its number there. -/
structure ImportSite where
  importText : String
  importer : Path
  line : Nat

/-- The event that a lookup at this line had the given answer. -/
def ImportSite.answered (site : ImportSite) (answer : Except String Path) : Event :=
  .resolved site.importText site.importer site.line answer

/-- Whether the line of this number was read, and is this import. -/
def ImportSite.WasRead (site : ImportSite) (directives : Directives) (run : Run σ) : Prop :=
  ∃ line trailing, run.HasLine site.importer site.line line ∧
    ImportReading.ofLine directives line = .directive site.importText trailing

/-- A failure as it is seen through import lines, outermost first. -/
def Failure.within : List ImportSite → Failure → Failure
  | [], failure => failure
  | site :: sites, failure =>
    imported site.importText site.importer site.line (within sites failure)

/-- Whether an import line leads from `top` to `path` over the sites. -/
def ArrivesAt (run : Run σ) (top : Path) (sites : List ImportSite) (path : Path) : Prop :=
  match sites.getLast? with
  | none => path = top
  | some site => site.answered (.ok path) ∈ run.events

/-- What can go wrong where a trail ends. The files in `outer` were open before `top`. -/
inductive RootCause (directives : Directives) (run : Run σ) (outer : OpenFiles) (top : Path)
    (sites : List ImportSite) : Failure → Prop where
  /-- The last import line could not be looked up. -/
  | unresolved {importText : String} {importer : Path} {line : Nat} {cause : String}
      (hlast : sites.getLast? = some ⟨importText, importer, line⟩)
      (hanswer : Event.resolved importText importer line (.error cause) ∈ run.events) :
      RootCause directives run outer top sites (.unreadable (Path.normal importText) cause)
  | unreadable {path : Path} {depth : Nat} {cause : String}
      (harrives : ArrivesAt run top sites path)
      (hanswer : Event.read path depth (.error cause) ∈ run.events) :
      RootCause directives run outer top sites (.unreadable path cause)
  | malformed {file : Path} {number : Nat} {line : String}
      (harrives : ArrivesAt run top sites file) (hline : run.HasLine file number line)
      (hreading : ImportReading.ofLine directives line = .malformed) :
      RootCause directives run outer top sites (.malformed file number (Text.trim line))
  /-- The trail arrives at a file that it has come through, or that was open before it. -/
  | circular {before cycle : List Path} {file path : Path}
      (harrives : ArrivesAt run top sites path)
      (hopen : outer.files ++ sites.map (·.importer) = before ++ file :: cycle)
      (hsame : file ≈ path) (hfirst : ∀ earlier ∈ before, ¬ earlier ≈ path) :
      RootCause directives run outer top sites (.circular (file :: cycle ++ [path]))

/-- The import lines lead from `top` to the root cause of a failure. -/
structure Trail (directives : Directives) (run : Run σ) (outer : OpenFiles) (top : Path)
    (sites : List ImportSite) (root : Failure) : Prop where
  starts : ∀ site ∈ sites.head?, site.importer = top
  imports : ∀ site ∈ sites, site.WasRead directives run
  linked : sites.IsChain fun site next => site.answered (.ok next.importer) ∈ run.events
  distinct : (sites.map (·.importer.components)).Nodup
  closed : ∀ site ∈ sites, ¬ outer.contains site.importer
  ends : RootCause directives run outer top sites root

section Extension

variable {directives : Directives} {run : Run σ} {outer : OpenFiles} {file path : Path}
  {sites : List ImportSite} {root : Failure} {importText : String} {number : Nat}

theorem ArrivesAt.cons {target : Path} (h : ArrivesAt run path sites target)
    (hanswer : Event.resolved importText file number (.ok path) ∈ run.events) :
    ArrivesAt run file (⟨importText, file, number⟩ :: sites) target := by
  unfold ArrivesAt at h ⊢
  cases sites with
  | nil =>
    simp only [List.getLast?_nil] at h
    subst h
    exact hanswer
  | cons site sites => rwa [List.getLast?_cons_cons]

theorem RootCause.cons (h : RootCause directives run (outer.push file) path sites root)
    (hanswer : Event.resolved importText file number (.ok path) ∈ run.events) :
    RootCause directives run outer file (⟨importText, file, number⟩ :: sites) root := by
  cases h with
  | unresolved hlast hcause =>
    refine .unresolved ?_ hcause
    cases sites with
    | nil => cases hlast
    | cons site sites => rwa [List.getLast?_cons_cons]
  | unreadable harrives hcause => exact .unreadable (harrives.cons hanswer) hcause
  | malformed harrives hline hreading =>
    exact .malformed (harrives.cons hanswer) hline hreading
  | circular harrives hopen hsame hfirst =>
    refine .circular (harrives.cons hanswer) ?_ hsame hfirst
    simpa [OpenFiles.push] using hopen

theorem RootCause.trail (h : RootCause directives run outer file [] root) :
    ∃ sites root', root = .within sites root' ∧ Trail directives run outer file sites root' :=
  ⟨[], root, rfl, by simp, by simp, .nil, by simp, by simp, h⟩

/-- An import line that could not be looked up is a trail of its own. -/
theorem Trail.of_unresolved {cause : String} (hnew : ¬ outer.contains file)
    (himport : ImportSite.WasRead ⟨importText, file, number⟩ directives run)
    (hanswer : Event.resolved importText file number (.error cause) ∈ run.events) :
    Trail directives run outer file [⟨importText, file, number⟩]
      (.unreadable (Path.normal importText) cause) where
  starts := by simp
  imports := by simpa using himport
  linked := .singleton _
  distinct := by simp
  closed := by simpa using hnew
  ends := .unresolved rfl hanswer

/-- A trail below a file is a trail from that file, over the import line that led below it. -/
theorem Trail.cons (h : Trail directives run (outer.push file) path sites root)
    (hnew : ¬ outer.contains file)
    (himport : ImportSite.WasRead ⟨importText, file, number⟩ directives run)
    (hanswer : Event.resolved importText file number (.ok path) ∈ run.events) :
    Trail directives run outer file (⟨importText, file, number⟩ :: sites) root where
  starts := by
    intro site hsite
    cases hsite
    rfl
  imports := by
    intro site hsite
    rcases List.mem_cons.mp hsite with rfl | hsite
    · exact himport
    · exact h.imports site hsite
  linked := by
    cases sites with
    | nil => exact .singleton _
    | cons site sites =>
      refine .cons_cons ?_ h.linked
      rw [h.starts site rfl]
      exact hanswer
  distinct := by
    rw [List.map_cons, List.nodup_cons]
    refine ⟨?_, h.distinct⟩
    intro hmem
    obtain ⟨site, hsite, hsame⟩ := List.mem_map.mp hmem
    apply h.closed site hsite
    have hequiv : file ≈ site.importer := hsame.symm
    simp [OpenFiles.contains_push, hequiv]
  closed := by
    intro site hsite
    rcases List.mem_cons.mp hsite with rfl | hsite
    · exact hnew
    · intro hopen
      apply h.closed site hsite
      simp [OpenFiles.contains_push, hopen]
  ends := h.ends.cons hanswer

end Extension

namespace Task

/-- The file that a task is about. -/
def path : Task → Path
  | .file path => path
  | .lines importer _ _ _ => importer

/-- The files that were open before the file that a task is about. -/
def Below (outer opened : OpenFiles) : Task → Prop
  | .file _ => outer = opened
  | .lines importer _ _ _ => outer.enter importer = .ok opened

end Task

theorem Stop.imported_eq_failed {importText : String} {importer : Path} {line : Nat} {stop : Stop}
    {failure : Failure} (h : stop.imported importText importer line = .failed failure) :
    ∃ inner, stop = .failed inner ∧ failure = .imported importText importer line inner := by
  cases stop with
  | failed inner =>
    cases h
    exact ⟨inner, rfl, rfl⟩
  | tooDeep => cases h

/-- A failing task leaves a trail from its file. -/
theorem Expands.trail {provider : Provider σ} {directives : Directives} {limit : Nat}
    {outer opened : OpenFiles} {task : Task} {run after : Run σ}
    {result : Except Stop ExpansionTree} {failure : Failure}
    (h : Expands provider directives limit opened task run result after)
    (houter : task.Below outer opened) (hresult : result = .error (.failed failure)) :
    ∃ sites root, failure = .within sites root ∧
      Trail directives after outer task.path sites root := by
  induction h generalizing outer failure with
  | tooDeep => cases hresult
  | circular henter =>
    cases hresult
    obtain rfl := houter
    obtain ⟨before, file, cycle, hopen, hsame, hfirst, rfl⟩ := OpenFiles.enter_eq_error henter
    exact RootCause.trail (.circular rfl (by simpa using hopen) hsame hfirst)
  | unreadable henter hread =>
    cases hresult
    exact RootCause.trail (.unreadable rfl (Run.read_mem_asked hread _))
  | alreadyIncluded => cases hresult
  | entered henter _ _ _ ih =>
    obtain rfl := houter
    exact ih henter hresult
  | done => cases hresult
  | malformed hat hline =>
    cases hresult
    exact RootCause.trail (.malformed rfl hat.hasLine hline)
  | unresolved hat hline hresolve =>
    cases hresult
    obtain ⟨hnew, _⟩ := OpenFiles.enter_eq_ok houter
    refine ⟨[_], _, rfl, .of_unresolved hnew ⟨_, _, hat.hasLine.mono ?_, hline⟩
      (Run.resolved_mem_consulted hresolve _ _)⟩
    exact (Run.events_prefix_consulted _ _ _ _ _ _).subset
  | alreadyImported _ _ _ _ _ ih => exact ih houter (map_eq_error_iff.mp hresult)
  | failedImport hat hline hresolve hfresh hchild ih =>
    obtain ⟨inner, rfl, rfl⟩ := Stop.imported_eq_failed (Except.error.inj hresult)
    obtain ⟨sites, root, rfl, htrail⟩ := ih rfl rfl
    obtain ⟨hnew, _⟩ := OpenFiles.enter_eq_ok houter
    rw [OpenFiles.eq_push_of_enter houter] at htrail
    have hconsulted := (Run.events_prefix_consulted _ _ _ _ _ _).trans hchild.events_prefix
    have hanswer := hchild.events_prefix.subset (Run.resolved_mem_consulted hresolve _ _)
    exact ⟨_ :: sites, root, rfl, htrail.cons hnew
      ⟨_, _, hat.hasLine.mono hconsulted.subset, hline⟩ hanswer⟩
  | inlined _ _ _ _ _ _ _ ih => exact ih houter (map_eq_error_iff.mp hresult)
  | inBlock _ _ ih => exact ih houter (map_eq_error_iff.mp hresult)
  | plain _ _ _ _ ih => exact ih houter (map_eq_error_iff.mp hresult)
  | opening _ _ _ _ _ ih => exact ih houter (map_eq_error_iff.mp hresult)
  | skippedBlock _ _ _ _ _ ih => exact ih houter (map_eq_error_iff.mp hresult)

/-- Every failure tells what happened. Its import lines stand in different files, each of which was
read in this call, every one but the last was answered with the file of the next, and its root is
what stopped the call where they end. -/
theorem call_failure_trail {provider : Provider σ} {directives : Directives} {limit : Nat}
    {text : String} {opened : OpenFiles} {state : BatchState} {source : σ} {failure : Failure}
    (h : (provider.call directives limit text opened state source).result =
      .error (.failed failure)) :
    let run := (provider.call directives limit text opened state source).run
    run.AnsweredBy provider source ∧
      ∃ sites root, failure = .within sites root ∧
        Trail directives run opened (Path.normal text) sites root := by
  intro run
  refine ⟨call_answeredBy provider directives limit text opened state source, ?_⟩
  obtain ⟨result, hexpands, hresult⟩ :=
    call_expands provider directives limit text opened state source
  rw [hresult] at h
  exact hexpands.trail rfl (map_eq_error_iff.mp h)

/-- A library with a cycle that the first file does not belong to. -/
def innerCycle : Library :=
  .ofFiles [("main", "int x;\n#import \"lib/a\"\n"), ("lib/a", "#import \"b\"\n"),
    ("lib/b", "\n#import <../lib/a>\n")]

def innerCycleFailure : Failure :=
  .imported "lib/a" ⟨"main"⟩ 2 (.imported "b" ⟨"lib/a"⟩ 1 (.imported "../lib/a" ⟨"lib/b"⟩ 2
    (.circular [⟨"lib/a"⟩, ⟨"lib/b"⟩, ⟨"lib/a"⟩])))

theorem call_failure_trail_innerCycle :
    (innerCycle.provider.call {} 4 "./main" {} {} ()).result =
      .error (.failed innerCycleFailure) ∧
    ∃ sites root, innerCycleFailure = .within sites root ∧
      Trail {} (innerCycle.provider.call {} 4 "./main" {} {} ()).run {} (Path.normal "./main")
        sites root := by
  have hresult : (innerCycle.provider.call {} 4 "./main" {} {} ()).result =
      .error (.failed innerCycleFailure) := by decide +kernel
  exact ⟨hresult, (call_failure_trail hresult).2⟩

end ShaderInline
