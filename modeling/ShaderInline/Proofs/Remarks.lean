import ShaderInline.Proofs.Contributions
import ShaderInline.Proofs.ImportGrammar

/-!
# Remarks on import lines

An import line is reached when its text is looked up, and what follows its import is remarked on
right before. So the remarks are those on the import lines that were reached, in order, whatever
comes of the imports. No file is read twice, and so no line is reached twice.
-/
namespace ShaderInline

variable {σ : Type}

/-- The import line that is looked up. -/
def Event.importLine? : Event → Option (Path × Nat)
  | resolved _ importer line _ => some (importer, line)
  | _ => none

/-- An import line that was reached: where it stands and what it was read as. -/
structure ReachedImport where
  file : Path
  line : Nat
  importText : String
  trailing : Option String

namespace ReachedImport

def place (reached : ReachedImport) : Path × Nat := (reached.file, reached.line)

/-- The remark on what follows the import. -/
def remark? (reached : ReachedImport) : Option Remark :=
  reached.trailing.map (Remark.ignoredText reached.file reached.line reached.importText)

end ReachedImport

namespace Run

/-- The import lines that were reached, in order. -/
def importLines (run : Run σ) : List (Path × Nat) := run.events.filterMap Event.importLine?

/-- Whether a line of a file that was read is an import made of these parts. -/
def SpellsImport (run : Run σ) (directives : Directives) (file : Path) (number : Nat)
    (parts : ImportReading.Spelling) : Prop :=
  ∃ line, run.HasLine file number line ∧
    ImportReading.Spells directives.importKeyword.toList (Text.trimChars line.toList) parts

/-- Whether a line of a file that was read is an import followed by more than blanks. -/
def HasRest (run : Run σ) (directives : Directives) (file : Path) (number : Nat) : Prop :=
  ∃ parts, run.SpellsImport directives file number parts ∧ ∃ c ∈ parts.rest, ¬ Text.isBlank c

/-- Whether a line of a file that was read is read as a reached import. -/
def HasImport (run : Run σ) (directives : Directives) (reached : ReachedImport) : Prop :=
  ∃ line, run.HasLine reached.file reached.line line ∧
    ImportReading.ofLine directives line = .directive reached.importText reached.trailing

/-- `Reaches run after directives Line added`: on the way from `run` to `after` the import lines
`added` are reached, each of them once, and remarked on. All of them are lines of the given kind. -/
structure Reaches (run after : Run σ) (directives : Directives) (Line : Path → Nat → Prop)
    (added : List ReachedImport) : Prop where
  importLines : after.importLines = run.importLines ++ added.map ReachedImport.place
  remarks : after.state.remarks = run.state.remarks ++ added.filterMap ReachedImport.remark?
  nodup : (added.map ReachedImport.place).Nodup
  within : ∀ reached ∈ added, Line reached.file reached.line
  hasImport : ∀ reached ∈ added, after.HasImport directives reached

section Steps

variable {provider : Provider σ} {directives : Directives} {run middle after : Run σ}
  {Line Later : Path → Nat → Prop} {added later : List ReachedImport} {file : Path} {number : Nat}

theorem HasImport.mono {reached : ReachedImport} (h : run.HasImport directives reached)
    (hevents : run.events ⊆ after.events) : after.HasImport directives reached := by
  obtain ⟨line, hline, hreading⟩ := h
  exact ⟨line, hline.mono hevents, hreading⟩

/-- The line of a reached import is made of its path and what follows it. -/
theorem HasImport.exists_spells {reached : ReachedImport} (h : run.HasImport directives reached) :
    ∃ parts, run.SpellsImport directives reached.file reached.line parts ∧
      reached.importText = String.ofList parts.path ∧
      reached.trailing = ImportReading.trailing? parts.rest := by
  obtain ⟨line, hline, hreading⟩ := h
  obtain ⟨parts, hspells, hparts⟩ := ImportReading.ofLine_eq_directive_iff_spells.mp hreading
  exact ⟨parts, ⟨line, hline, hspells⟩, hparts⟩

theorem SpellsImport.unique {parts parts' : ImportReading.Spelling}
    (h : run.SpellsImport directives file number parts)
    (hother : run.SpellsImport directives file number parts') (hnodup : run.identities.Nodup) :
    parts = parts' := by
  obtain ⟨line, hline, hspells⟩ := h
  obtain ⟨line', hline', hspells'⟩ := hother
  obtain rfl := hline.unique hline' hnodup
  exact hspells.unique hspells'

theorem importLines_noted {event : Event} (hevent : event.importLine? = none) :
    (run.noted event).importLines = run.importLines := by
  simp [importLines, hevent]

@[simp] theorem importLines_asked (path : Path) (depth : Nat) :
    (run.asked provider path depth).importLines = run.importLines :=
  importLines_noted rfl

@[simp] theorem importLines_begun (path : Path) (content : String) :
    (run.begun directives path content).importLines = run.importLines := by
  simp [importLines]

theorem importLines_consulted (importText : String) (trailing : Option String) :
    (run.consulted provider file number importText trailing).importLines =
      run.importLines ++ [(file, number)] := by
  have hlookedUp : ∀ run : Run σ,
      (run.lookedUp provider importText file number).importLines =
        run.importLines ++ [(file, number)] := by
    intro run
    simp [importLines, Event.importLine?]
  cases trailing with
  | none => exact hlookedUp run
  | some trailing => exact (hlookedUp _).trans (congrArg (· ++ _) (importLines_noted rfl))

@[simp] theorem remarks_begun (path : Path) (content : String) :
    (run.begun directives path content).state.remarks = run.state.remarks := by
  unfold begun
  split <;> rfl

theorem remarks_consulted (importText : String) (trailing : Option String) :
    (run.consulted provider file number importText trailing).state.remarks =
      run.state.remarks ++ [⟨file, number, importText, trailing⟩].filterMap
        ReachedImport.remark? := by
  cases trailing with
  | none => exact (List.append_nil _).symm
  | some trailing => rfl

namespace Reaches

theorem nothing (hlines : after.importLines = run.importLines)
    (hremarks : after.state.remarks = run.state.remarks) :
    run.Reaches after directives Line [] where
  importLines := by rw [hlines, List.map_nil, List.append_nil]
  remarks := by rw [hremarks, List.filterMap_nil, List.append_nil]
  nodup := .nil
  within := by simp
  hasImport := by simp

/-- Before anything was reached. -/
theorem widen (h : middle.Reaches after directives Line added)
    (hlines : middle.importLines = run.importLines)
    (hremarks : middle.state.remarks = run.state.remarks)
    (hwiden : ∀ path n, Line path n → Later path n) : run.Reaches after directives Later added where
  importLines := by rw [h.importLines, hlines]
  remarks := by rw [h.remarks, hremarks]
  nodup := h.nodup
  within reached hmem := hwiden _ _ (h.within reached hmem)
  hasImport := h.hasImport

theorem append (h : run.Reaches middle directives Line added)
    (hlater : middle.Reaches after directives Later later) (hevents : middle.events ⊆ after.events)
    (hapart : ∀ path n, Line path n → ¬ Later path n) :
    run.Reaches after directives (fun path n => Line path n ∨ Later path n) (added ++ later) where
  importLines := by rw [hlater.importLines, h.importLines, List.map_append, List.append_assoc]
  remarks := by rw [hlater.remarks, h.remarks, List.filterMap_append, List.append_assoc]
  nodup := by
    rw [List.map_append]
    refine List.nodup_append.mpr ⟨h.nodup, hlater.nodup, ?_⟩
    intro place hplace other hother heq
    obtain ⟨first, hfirst, rfl⟩ := List.mem_map.mp hplace
    obtain ⟨second, hsecond, rfl⟩ := List.mem_map.mp hother
    obtain ⟨hfile, hline⟩ := Prod.mk.inj heq
    exact hapart _ _ (h.within first hfirst) (hfile ▸ hline ▸ hlater.within second hsecond)
  within := by
    intro reached hmem
    exact (List.mem_append.mp hmem).imp (h.within reached) (hlater.within reached)
  hasImport := by
    intro reached hmem
    rcases List.mem_append.mp hmem with hmem | hmem
    · exact (h.hasImport reached hmem).mono hevents
    · exact hlater.hasImport reached hmem

end Reaches

end Steps

end Run

section Rules

variable {provider : Provider σ} {directives : Directives} {limit : Nat} {opened : OpenFiles}
  {task : Task} {run middle after : Run σ} {result : Except Stop ExpansionTree}
  {added later : List ReachedImport} {file : Path} {number : Nat}

/-- An import line is reached, and remarked on. -/
theorem Run.Reaches.consulted (provider : Provider σ) {line importText : String}
    {lines : List String} {trailing : Option String} (hat : run.Walks file number (line :: lines))
    (hline : ImportReading.ofLine directives line = .directive importText trailing) :
    run.Reaches (run.consulted provider file number importText trailing) directives
      (fun path n => path = file ∧ n = number) [⟨file, number, importText, trailing⟩] where
  importLines := Run.importLines_consulted importText trailing
  remarks := Run.remarks_consulted importText trailing
  nodup := List.nodup_singleton _
  within := by simp
  hasImport := by
    have himport : run.HasImport directives ⟨file, number, importText, trailing⟩ :=
      ⟨line, hat.hasLine, hline⟩
    simpa using himport.mono (Run.events_prefix_consulted _ _ _ _ _ _).subset

/-- A file that is imported is another one than the file of the import line. -/
theorem Run.Reaches.imported {importText : String} {trailing : Option String}
    (h : run.Reaches (run.consulted provider file number importText trailing) directives
      (fun path n => path = file ∧ n = number) added)
    (hchild : (run.consulted provider file number importText trailing).Reaches after directives
      (fun path _ => (run.consulted provider file number importText trailing).ReadsUntil after path)
      later)
    (hfile : file.components ∈ run.identities)
    (hevents : (run.consulted provider file number importText trailing).events <+: after.events) :
    run.Reaches after directives (run.CoversLine after file number) (added ++ later) := by
  refine (h.append hchild hevents.subset ?_).widen rfl rfl fun path n => Or.imp_right fun hreads =>
    hreads.widen (by simp) (List.Subset.refl _)
  rintro path n ⟨hpath, _⟩ hreads
  rw [hpath] at hreads
  exact hreads.1 (by rwa [Run.identities_consulted])

/-- The lines of a file are reached one after the other. -/
theorem Run.Reaches.behind
    (h : run.Reaches middle directives (run.CoversLine middle file number) added)
    (hlater : middle.Reaches after directives (middle.CoversLines after file (number + 1)) later)
    (hfile : file.components ∈ run.identities) (hgrown : run.events <+: middle.events)
    (hevents : middle.events <+: after.events) :
    run.Reaches after directives (run.CoversLines after file number) (added ++ later) := by
  have hread := (Run.identities_prefix hgrown).subset
  have hmiddle := (Run.identities_prefix hevents).subset
  have hapart : ∀ path n, run.CoversLine middle file number path n →
      ¬ middle.CoversLines after file (number + 1) path n := by
    rintro path n (⟨hpath, hn⟩ | hreads) (⟨hsame, hle⟩ | hunread)
    · omega
    · exact hunread.1 (hpath ▸ hread hfile)
    · exact hreads.1 (hsame ▸ hfile)
    · exact hunread.1 hreads.2
  refine (h.append hlater hevents.subset hapart).widen rfl rfl fun path n => ?_
  rintro (hcovers | hcovers)
  · exact hcovers.lines hmiddle
  · exact hcovers.tail hread

/-- An expansion reaches import lines of the files that it reads, and remarks on them. -/
theorem Expands.reaches (h : Expands provider directives limit opened task run result after)
    (hnodup : after.identities.Nodup) :
    ∃ added, run.Reaches after directives (task.Covers run after) added := by
  induction h with
  | tooDeep | circular | malformed | done => exact ⟨[], .nothing rfl rfl⟩
  | unreadable => exact ⟨[], .nothing (by simp) rfl⟩
  | alreadyIncluded =>
    exact ⟨[], .nothing ((Run.importLines_noted rfl).trans (Run.importLines_asked _ _)) rfl⟩
  | entered _ _ _ hwalk ih =>
    obtain ⟨added, hadded⟩ := ih hnodup
    refine ⟨added, hadded.widen (by simp) (Run.remarks_begun _ _) ?_⟩
    rintro path n (⟨rfl, _⟩ | hreads)
    · have hprefix := Run.identities_prefix hwalk.events_prefix
      rw [Run.identities_begun] at hprefix
      exact Run.readsUntil_of_asked hprefix hnodup
    · exact hreads.widen (by simp) (List.Subset.refl _)
  | inBlock _ _ ih =>
    obtain ⟨added, hadded⟩ := ih hnodup
    exact ⟨added, hadded.widen rfl rfl fun _ _ hcovers => hcovers.tail (List.Subset.refl _)⟩
  | unresolved hat hline =>
    have hreached := Run.Reaches.consulted provider hat hline
    exact ⟨_, hreached.widen rfl rfl fun _ _ ⟨hpath, hn⟩ => .inl ⟨hpath, hn.ge⟩⟩
  | alreadyImported hat hline _ _ hrest ih =>
    have hreached := Run.Reaches.consulted provider hat hline
    obtain ⟨later, hlater⟩ := ih hnodup
    exact ⟨_, (hreached.widen rfl rfl fun _ _ => .inl).behind hlater
      (List.mem_map_of_mem hat.mem_reads) (Run.events_prefix_consulted _ _ _ _ _ _)
      hrest.events_prefix⟩
  | failedImport hat hline _ _ hchild ih =>
    have hreached := Run.Reaches.consulted provider hat hline
    obtain ⟨added, hadded⟩ := ih hnodup
    have himported := hreached.imported hadded (List.mem_map_of_mem hat.mem_reads)
      hchild.events_prefix
    exact ⟨_, himported.widen rfl rfl fun _ _ hcovers => hcovers.lines (List.Subset.refl _)⟩
  | inlined hat hline _ _ hchild hrest ihchild ihrest =>
    have hread := List.mem_map_of_mem (f := Path.components) hat.mem_reads
    have hbehind := Run.identities_prefix hrest.events_prefix
    have hreached := Run.Reaches.consulted provider hat hline
    obtain ⟨added, hadded⟩ := ihchild (hnodup.sublist hbehind.sublist)
    obtain ⟨later, hlater⟩ := ihrest hnodup
    have himported := hreached.imported hadded hread hchild.events_prefix
    have hgrown := (Run.events_prefix_consulted _ _ _ _ _ _).trans hchild.events_prefix
    exact ⟨_, himported.behind (hlater.widen rfl rfl fun _ _ => id) hread hgrown
      hrest.events_prefix⟩
  | plain _ _ _ _ ih =>
    obtain ⟨added, hadded⟩ := ih hnodup
    exact ⟨added, hadded.widen rfl rfl fun _ _ hcovers => hcovers.tail (List.Subset.refl _)⟩
  | opening _ _ _ _ _ ih =>
    obtain ⟨added, hadded⟩ := ih hnodup
    exact ⟨added, hadded.widen rfl rfl fun _ _ hcovers => hcovers.tail (List.Subset.refl _)⟩
  | skippedBlock _ _ _ _ _ ih =>
    obtain ⟨added, hadded⟩ := ih hnodup
    refine ⟨added, hadded.widen (Run.importLines_noted rfl) rfl fun _ _ hcovers => ?_⟩
    exact hcovers.tail (by simp [Run.identities])

end Rules

section Places

variable {directives : Directives} {run : Run σ} (hnodup : run.identities.Nodup)

include hnodup

/-- A reached import has a remark exactly if more than blanks follow it. -/
theorem Run.HasImport.isSome_trailing_iff {reached : ReachedImport}
    (h : run.HasImport directives reached) :
    reached.trailing.isSome ↔ run.HasRest directives reached.file reached.line := by
  obtain ⟨parts, hspells, _, htrailing⟩ := h.exists_spells
  have hrest : reached.trailing.isSome ↔ ∃ c ∈ parts.rest, ¬ Text.isBlank c := by
    rw [htrailing, ImportReading.trailing?_eq]
    split <;> simp_all
  rw [hrest]
  constructor
  · exact fun hother => ⟨parts, hspells, hother⟩
  · rintro ⟨parts', hspells', hother⟩
    rwa [hspells.unique hspells' hnodup]

open Classical in
/-- The remarks stand at the places that have a rest, in the same order. -/
theorem ReachedImport.map_remarks {imports : List ReachedImport}
    (himports : ∀ reached ∈ imports, run.HasImport directives reached) :
    (imports.filterMap remark?).map (fun remark => (remark.file, remark.line)) =
      (imports.map place).filter fun line => run.HasRest directives line.1 line.2 := by
  rw [List.map_filterMap, ← List.filterMap_eq_filter, List.filterMap_map]
  refine List.filterMap_congr fun reached hmem => ?_
  have hsome := (himports reached hmem).isSome_trailing_iff hnodup
  by_cases hrest : run.HasRest directives reached.file reached.line
  · obtain ⟨trailing, htrailing⟩ := Option.isSome_iff_exists.mp (hsome.mpr hrest)
    simp [remark?, place, Option.guard, htrailing, hrest, Remark.ignoredText]
  · have htrailing : reached.trailing = none := by simpa [hrest] using hsome
    simp [remark?, place, Option.guard, htrailing, hrest]

end Places

/-- A remark quotes the path of its line and repeats what follows it. -/
theorem Run.HasImport.message_of_remark? {directives : Directives} {run : Run σ}
    {reached : ReachedImport} {remark : Remark} (h : run.HasImport directives reached)
    (hremark : reached.remark? = some remark) :
    ∃ parts, run.SpellsImport directives remark.file remark.line parts ∧
      remark.message = "ignored text after import of " ++
        Text.quoted (String.ofList parts.path) ++ ": " ++
        String.ofList (Text.trimChars parts.rest) := by
  obtain ⟨parts, hspells, himportText, htrailing⟩ := h.exists_spells
  obtain ⟨trailing, hsome, rfl⟩ := Option.map_eq_some_iff.mp hremark
  rw [hsome, ImportReading.trailing?_eq] at htrailing
  split at htrailing
  case isTrue => cases htrailing
  case isFalse =>
    refine ⟨parts, hspells, ?_⟩
    rw [Remark.ignoredText, himportText, Option.some.inj htrailing]

open Classical in
/-- The import lines that a call from a fresh state reaches are reached once each. Those that are
followed by more than blanks are remarked on in the order in which they are reached, with their
file, their number, and what follows the import. -/
theorem call_remarks (provider : Provider σ) (directives : Directives) (limit : Nat) (text : String)
    (source : σ) :
    let run := (provider.call directives limit text {} {} source).run
    run.importLines.Nodup ∧
      (∀ line ∈ run.importLines, ∃ parts, run.SpellsImport directives line.1 line.2 parts) ∧
      run.state.remarks.map (fun remark => (remark.file, remark.line)) =
        run.importLines.filter (fun line => run.HasRest directives line.1 line.2) ∧
      ∀ remark ∈ run.state.remarks,
        ∃ parts, run.SpellsImport directives remark.file remark.line parts ∧
          remark.message = "ignored text after import of " ++
            Text.quoted (String.ofList parts.path) ++ ": " ++
            String.ofList (Text.trimChars parts.rest) := by
  intro run
  have hnodup : run.identities.Nodup :=
    call_identities_nodup provider directives limit text {} {} source
  obtain ⟨_, hexpands, _⟩ := call_expands provider directives limit text {} {} source
  obtain ⟨imports, hreaches⟩ := hexpands.reaches hnodup
  have hlines : run.importLines = imports.map ReachedImport.place :=
    hreaches.importLines.trans (List.nil_append _)
  have hremarks : run.state.remarks = imports.filterMap ReachedImport.remark? :=
    hreaches.remarks.trans (List.nil_append _)
  rw [hlines, hremarks]
  refine ⟨hreaches.nodup, fun line hmem => ?_,
    ReachedImport.map_remarks hnodup hreaches.hasImport, fun remark hmem => ?_⟩
  · obtain ⟨reached, hreached, rfl⟩ := List.mem_map.mp hmem
    obtain ⟨parts, hspells, _⟩ := (hreaches.hasImport reached hreached).exists_spells
    exact ⟨parts, hspells⟩
  · obtain ⟨reached, hreached, hremark⟩ := List.mem_filterMap.mp hmem
    exact (hreaches.hasImport reached hreached).message_of_remark? hremark

end ShaderInline
