import ShaderInline.Proofs.Contributions
import ShaderInline.Proofs.Insertions

/-!
# The record of inlined files

From a fresh state the record holds exactly the files that the output has an insertion of, each with
the digest of the text between its markers. No file has two such insertions, and a marker that
refers to a file stands behind the insertion of that file.
-/
namespace ShaderInline

variable {σ : Type}

namespace Insertion

/-- Enters the file of an insertion with its expanded text. -/
def record (inlined : InlinedFiles) (insertion : Insertion) : InlinedFiles :=
  match insertion.content with
  | none => inlined
  | some tree => inlined.add insertion.file (tree.flatten insertion.file).text

/-- Whether an insertion brings in the expansion of a file. -/
def Brings (insertion : Insertion) (path : Path) : Prop :=
  insertion.content.isSome ∧ insertion.file ≈ path

variable {inlined : InlinedFiles} {insertions : List Insertion} {path : Path}

theorem contains_foldl_record :
    (insertions.foldl record inlined).contains path ↔
      inlined.contains path ∨ ∃ insertion ∈ insertions, insertion.Brings path := by
  induction insertions generalizing inlined with
  | nil => simp
  | cons first insertions ih =>
    rw [List.foldl_cons, ih]
    cases hcontent : first.content with
    | none => simp [record, Brings, hcontent]
    | some tree => simp [record, Brings, hcontent, InlinedFiles.contains_add, or_assoc, or_left_comm]

theorem digest?_foldl_record_of_not_brings (inlined : InlinedFiles)
    (h : ∀ insertion ∈ insertions, ¬ insertion.Brings path) :
    (insertions.foldl record inlined).digest? path = inlined.digest? path := by
  induction insertions generalizing inlined with
  | nil => rfl
  | cons first insertions ih =>
    have hfirst := h first List.mem_cons_self
    rw [List.foldl_cons, ih _ fun insertion hmem => h insertion (List.mem_cons_of_mem _ hmem)]
    cases hcontent : first.content with
    | none => simp [record, hcontent]
    | some tree =>
      have hother : ¬ first.file ≈ path := fun hsame => hfirst ⟨by simp [hcontent], hsame⟩
      simp only [record, hcontent]
      exact (InlinedFiles.digest?_add _ _ _ _).trans (if_neg hother)

/-- If no file is brought in twice, the record has the digest of what was brought in. -/
theorem digest?_foldl_record
    (hdistinct : insertions.Pairwise fun first second =>
      first.content.isSome → ¬ second.Brings first.file)
    {insertion : Insertion} (hmem : insertion ∈ insertions) {tree : ExpansionTree}
    (hcontent : insertion.content = some tree) :
    (insertions.foldl record inlined).digest? insertion.file =
      some (Sha256.ofText (tree.flatten insertion.file).text) := by
  induction insertions generalizing inlined with
  | nil => cases hmem
  | cons first insertions ih =>
    obtain ⟨hfirst, hrest⟩ := List.pairwise_cons.mp hdistinct
    rcases List.mem_cons.mp hmem with rfl | hmem
    · have hlater := digest?_foldl_record_of_not_brings (record inlined insertion)
        fun other hother => hfirst other hother (by simp [hcontent])
      rw [List.foldl_cons, hlater, record, hcontent]
      exact (InlinedFiles.digest?_add _ _ _ _).trans (if_pos (Setoid.refl _))
    · exact ih hrest hmem

end Insertion

/-- References leave the record as it is. -/
theorem Insertion.foldl_record_of_references {insertions : List Insertion}
    (h : ∀ insertion ∈ insertions, insertion.content = none) (inlined : InlinedFiles) :
    insertions.foldl record inlined = inlined := by
  induction insertions with
  | nil => rfl
  | cons first insertions ih =>
    rw [List.foldl_cons, record, h first List.mem_cons_self]
    exact ih fun insertion hmem => h insertion (List.mem_cons_of_mem _ hmem)

/-- The files that a task may bring in: the task reads them, and does not begin with them. -/
def Task.MayBring (run after : Run σ) : Task → Path → Prop
  | .file path => fun other => run.ReadsUntil after other ∧ ¬ other ≈ path
  | .lines _ _ _ _ => fun other => run.ReadsUntil after other

/-- Whether every recorded file has an insertion that ends with the first `bound` output lines. -/
def Run.Shows (run : Run σ) (insertions : List Insertion) (bound : Nat) : Prop :=
  ∀ path, run.state.inlined.contains path →
    ∃ insertion ∈ insertions, insertion.Brings path ∧ insertion.stop ≤ bound

theorem Run.Shows.mono {run after : Run σ} {insertions more : List Insertion} {bound larger : Nat}
    (h : run.Shows insertions bound) (hinlined : after.state.inlined = run.state.inlined)
    (hsub : insertions ⊆ more) (hle : bound ≤ larger) : after.Shows more larger := by
  intro path hknown
  rw [hinlined] at hknown
  obtain ⟨insertion, hmem, hbrings, hstop⟩ := h path hknown
  exact ⟨insertion, hsub hmem, hbrings, by omega⟩

namespace Yields

variable {provider : Provider σ} {directives : Directives} {opened : OpenFiles} {task : Task}
  {run after : Run σ} {tree : ExpansionTree}

/-- The files of the insertions are recorded in the order of the insertions. -/
theorem inlined_eq (h : Yields provider directives opened task run tree after) (start : Nat) :
    after.state.inlined =
      (task.insertions start tree).foldl Insertion.record run.state.inlined := by
  induction h generalizing start with
  | alreadyIncluded | done => rfl
  | entered _ _ _ _ ih =>
    rw [ih start]
    simp [Task.insertions]
  | passed hat hline hrest ih =>
    obtain ⟨own, added, hparts, hown⟩ := hline.insertions hat start
    have hquiet := Insertion.foldl_record_of_references fun insertion hmem =>
      (hown insertion hmem).2.1
    rw [Task.insertions, (hparts _).1, List.foldl_append, hquiet, ← hline.inlined_eq]
    exact ih _
  | @inlined _ file number line lines importText trailing path run content middle rest after
      hat hline hresolve hfresh hchild hrest ihchild ihrest =>
    have hcontent := ihchild
      (Insertion.innerStart ⟨start, importText, file, number, path, some content⟩)
    rw [Run.inlined_consulted] at hcontent
    rw [Task.insertions, ExpansionTree.insertions, List.foldl_append, List.foldl_cons]
    exact (ihrest _).trans (by rw [Run.completed, hcontent]; rfl)

/-- What is brought in was read by the task. -/
theorem mayBring (h : Yields provider directives opened task run tree after)
    (hnodup : after.identities.Nodup) (start : Nat) :
    ∀ insertion ∈ task.insertions start tree, insertion.content.isSome →
      task.MayBring run after insertion.file := by
  induction h generalizing start with
  | alreadyIncluded | done => simp [Task.insertions, ExpansionTree.insertions]
  | entered hclosed hread hnew hwalk ih =>
    intro insertion hmem hsome
    have hreads := ih hnodup start insertion hmem hsome
    refine ⟨hreads.widen (by simp) (List.Subset.refl _), fun hsame => hreads.1 ?_⟩
    rw [Path.equiv_iff] at hsame
    simp [hsame]
  | passed hat hline hrest ih =>
    obtain ⟨own, added, hparts, hown⟩ := hline.insertions hat start
    have hsame := hline.identities_eq
    intro insertion hmem hsome
    rw [Task.insertions, (hparts _).1, List.mem_append] at hmem
    rcases hmem with hmem | hmem
    · rw [(hown insertion hmem).2.1] at hsome
      cases hsome
    · exact Run.ReadsUntil.widen (ih hnodup _ insertion hmem hsome) (by rw [hsame]; simp) (by simp)
  | @inlined _ file number line lines importText trailing path run content middle rest after
      hat hline hresolve hfresh hchild hrest ihchild ihrest =>
    have hmiddle : middle.identities <+: after.identities := hrest.identities_prefix
    have hgrown := hchild.identities_prefix
    rw [Run.identities_consulted] at hgrown
    intro insertion hmem hsome
    rcases List.mem_append.mp hmem with hmem | hmem
    · have hchildReads := ihchild (hnodup.sublist hmiddle.sublist) _ insertion hmem hsome
      exact hchildReads.1.widen (by simp) hmiddle.subset
    rcases List.mem_cons.mp hmem with rfl | hmem
    · have hpath := hchild.readsUntil_file (hnodup.sublist hmiddle.sublist)
      exact hpath.widen (by simp) hmiddle.subset
    · exact (ihrest hnodup _ insertion hmem hsome).widen hgrown.subset (by simp)

/-- No file is brought in twice. -/
theorem brings_once (h : Yields provider directives opened task run tree after)
    (hnodup : after.identities.Nodup) (start : Nat) :
    (task.insertions start tree).Pairwise fun first second =>
      first.content.isSome → ¬ second.Brings first.file := by
  induction h generalizing start with
  | alreadyIncluded | done => exact List.Pairwise.nil
  | entered _ _ _ _ ih => exact ih hnodup start
  | passed hat hline hrest ih =>
    obtain ⟨own, added, hparts, hown⟩ := hline.insertions hat start
    rw [Task.insertions, (hparts _).1, List.pairwise_append]
    refine ⟨?_, ih hnodup _, fun first hfirst _ _ hsome => ?_⟩
    · refine List.pairwise_of_forall_mem_list fun first hfirst _ _ hsome => ?_
      rw [(hown first hfirst).2.1] at hsome
      cases hsome
    · rw [(hown first hfirst).2.1] at hsome
      cases hsome
  | @inlined _ file number line lines importText trailing path run content middle rest after
      hat hline hresolve hfresh hchild hrest ihchild ihrest =>
    have hmiddle : middle.identities.Nodup := hnodup.sublist hrest.identities_prefix.sublist
    have hpath := hchild.readsUntil_file hmiddle
    -- What the lines behind the import bring in was not read until then.
    have hlater : ∀ start, ∀ second ∈ rest.insertions file (number + 1) start, ∀ other,
        second.Brings other → other.components ∉ middle.identities := by
      intro start second hsecond other hbrings hmem
      have hreads := hrest.mayBring hnodup start second hsecond hbrings.1
      apply hreads.1
      rw [Path.equiv_iff.mp hbrings.2]
      exact hmem
    refine List.pairwise_append.mpr ⟨ihchild hmiddle _, List.pairwise_cons.mpr
      ⟨fun second hsecond _ hbrings => ?_, ihrest hnodup _⟩, fun first hfirst second hsecond => ?_⟩
    · exact hlater _ second hsecond path hbrings hpath.2
    · intro hsome hbrings
      have hreads := hchild.mayBring hmiddle _ first hfirst hsome
      rcases List.mem_cons.mp hsecond with rfl | hsecond
      · exact hreads.2 (Setoid.symm hbrings.2)
      · exact hlater _ second hsecond _ hbrings hreads.1.2

/-- Wherever an output refers to a file, the insertion of that file has ended. -/
theorem shows (h : Yields provider directives opened task run tree after)
    {earlier : List Insertion} {start : Nat} (hrun : run.Shows earlier start) :
    after.Shows (earlier ++ task.insertions start tree) (start + (task.output tree).length) ∧
      ∀ reference ∈ task.insertions start tree, reference.content = none →
        ∃ insertion ∈ earlier ++ task.insertions start tree,
          insertion.Brings reference.file ∧ insertion.stop ≤ reference.start := by
  induction h generalizing earlier start with
  | alreadyIncluded =>
    refine ⟨hrun.mono rfl (List.subset_append_left _ _) (Nat.le_add_right _ _), ?_⟩
    simp [Task.insertions, ExpansionTree.insertions]
  | entered _ _ _ _ ih =>
    exact ih (hrun.mono (by simp) (List.Subset.refl _) (Nat.le_refl _))
  | done =>
    refine ⟨hrun.mono rfl (List.subset_append_left _ _) (Nat.le_add_right _ _), ?_⟩
    simp [Task.insertions, ExpansionTree.insertions]
  | @passed _ file number line lines skip run node left middle rest after hat hline hrest ih =>
    obtain ⟨own, added, hparts, hown⟩ := hline.insertions hat start
    have hmiddle : middle.Shows (earlier ++ own) (start + added) :=
      hrun.mono hline.inlined_eq (List.subset_append_left _ _) (Nat.le_add_right _ _)
    obtain ⟨hafter, hreferences⟩ := ih hmiddle
    rw [Task.insertions, (hparts rest).1, Task.output, (hparts rest).2, ← List.append_assoc,
      ← Nat.add_assoc]
    refine ⟨hafter, fun reference hmem hnone => ?_⟩
    rcases List.mem_append.mp hmem with hmem | hmem
    · obtain ⟨hstart, _, _, hknown⟩ := hown reference hmem
      obtain ⟨insertion, hinsertion, hbrings, hstop⟩ := hrun _ hknown
      exact ⟨insertion, by simp [hinsertion], hbrings, by omega⟩
    · exact hreferences reference hmem hnone
  | @inlined _ file number line lines importText trailing path run content middle rest after
      hat hline hresolve hfresh hchild hrest ihchild ihrest =>
    let own : Insertion := ⟨start, importText, file, number, path, some content⟩
    have hstop : own.stop = _ := Insertion.stop_expansion start importText file number path content
    have hinner : own.innerStart =
      start + (ExpansionTree.beginMarker importText file).length := rfl
    have hconsulted : (run.consulted provider file number importText trailing).Shows earlier
        own.innerStart :=
      hrun.mono (by simp) (List.Subset.refl _) (by omega)
    obtain ⟨hchildShows, hchildReferences⟩ := ihchild hconsulted
    have hcompleted : (middle.completed path (content.flatten path).text).Shows
        (earlier ++ content.insertions path 1 own.innerStart ++ [own]) own.stop := by
      intro other hknown
      have hadd : middle.state.inlined.contains other ∨ path ≈ other := by
        simpa [Run.completed, InlinedFiles.contains_add, or_comm] using hknown
      rcases hadd with hbefore | hsame
      · obtain ⟨insertion, hmem, hbrings, hle⟩ := hchildShows other hbefore
        refine ⟨insertion, List.mem_append_left _ hmem, hbrings, ?_⟩
        simp only [Task.output] at hle
        omega
      · exact ⟨own, by simp, ⟨rfl, hsame⟩, Nat.le_refl _⟩
    obtain ⟨hafter, hreferences⟩ := ihrest hcompleted
    have hparts : earlier ++ Task.insertions start (.inlined importText path content rest)
        (.lines file (line :: lines) number 0) =
        earlier ++ content.insertions path 1 own.innerStart ++ [own] ++
          rest.insertions file (number + 1) own.stop := by
      simp [Task.insertions, ExpansionTree.insertions, own]
    have hlength : start + (Task.output (.inlined importText path content rest)
        (.lines file (line :: lines) number 0)).length =
        own.stop + (rest.output file (number + 1)).length := by
      simp only [Task.output, ExpansionTree.output, List.length_append, OutputLine.length_closed]
      omega
    rw [hparts, hlength]
    refine ⟨hafter, fun reference hmem hnone => ?_⟩
    rcases List.mem_append.mp hmem with hmem | hmem
    · obtain ⟨insertion, hinsertion, hbrings⟩ := hchildReferences reference hmem hnone
      exact ⟨insertion, List.mem_append_left _ (List.mem_append_left _ hinsertion), hbrings⟩
    rcases List.mem_cons.mp hmem with rfl | hmem
    · cases hnone
    · exact hreferences reference hmem hnone

/-- From a state in which all guarded files were read, every generated line is a marker. -/
theorem exists_marks (h : Yields provider directives opened task run tree after)
    (hnodup : after.identities.Nodup) (hguards : run.GuardsRead) (start index : Nat)
    (hgenerated : ((task.output tree).map (·.origin))[index]? = some .generated) :
    ∃ insertion ∈ task.insertions start tree, insertion.Marks (start + index) := by
  induction h generalizing start index with
  | alreadyIncluded hclosed hread honce hguarded =>
    have hfile := Yields.alreadyIncluded hclosed hread honce hguarded
    exact absurd hguarded (hfile.not_isGuarded hguards hnodup)
  | entered _ _ _ _ ih =>
    exact ih hnodup ((Run.Steps.begun _ _ _ _ _ _).guardsRead hguards) start index hgenerated
  | done => cases hgenerated
  | @passed _ file number line lines skip run node left middle rest after hat hline hrest ih =>
    have hrestMarks := ih hnodup (hline.steps.guardsRead hguards)
    cases hline with
    | inBlock | skippedBlock => exact hrestMarks start index hgenerated
    | plain | opening =>
      cases index with
      | zero => cases hgenerated
      | succ index =>
        obtain ⟨insertion, hmem, hmarks⟩ := hrestMarks (start + 1) index hgenerated
        refine ⟨insertion, hmem, ?_⟩
        rwa [Nat.add_assoc, Nat.add_comm 1] at hmarks
    | @alreadyImported importText trailing path run hline hresolve hknown =>
      let own : Insertion := ⟨start, importText, file, number, path, none⟩
      have hstop : own.stop = _ := Insertion.stop_reference start importText file number path
      have hempty : own.inner.length = 0 := rfl
      rw [Task.output, ExpansionTree.output, List.map_append, List.getElem?_append,
        List.length_map] at hgenerated
      split at hgenerated
      case isTrue hown =>
        refine ⟨own, List.mem_cons_self, Nat.le_add_right _ _, by omega, ?_⟩
        omega
      case isFalse hown =>
        obtain ⟨insertion, hmem, hmarks⟩ := hrestMarks own.stop _ hgenerated
        have hindex : own.stop + (index - (ExpansionTree.importedMarker importText).length) =
            start + index := by omega
        exact ⟨insertion, List.mem_cons_of_mem _ hmem, hindex ▸ hmarks⟩
  | @inlined _ file number line lines importText trailing path run content middle rest after
      hat hline hresolve hfresh hchild hrest ihchild ihrest =>
    let own : Insertion := ⟨start, importText, file, number, path, some content⟩
    have hstop : own.stop = _ := Insertion.stop_expansion start importText file number path content
    have hinner : own.innerStart =
      start + (ExpansionTree.beginMarker importText file).length := rfl
    have hlength : own.inner.length = (content.output path 1).length := rfl
    have hguards' := (Run.Steps.consulted run provider file number importText trailing).guardsRead
      hguards
    have hown : own ∈ Task.insertions start (.inlined importText path content rest)
        (.lines file (line :: lines) number 0) := by
      simp [Task.insertions, ExpansionTree.insertions, own]
    simp only [Task.output, ExpansionTree.output, List.map_append, List.getElem?_append,
      List.length_append, List.length_map, OutputLine.map_origin_closed] at hgenerated
    split at hgenerated
    case isFalse hbehind =>
      obtain ⟨insertion, hmem, hmarks⟩ :=
        ihrest hnodup (hchild.steps.guardsRead hguards') own.stop _ hgenerated
      refine ⟨insertion, List.mem_append_right _ (List.mem_cons_of_mem _ hmem), ?_⟩
      have hindex : own.stop + (index - ((ExpansionTree.beginMarker importText file).length +
          (content.output path 1).length + (ExpansionTree.endMarker importText).length)) =
          start + index := by omega
      exact hindex ▸ hmarks
    split at hgenerated
    case isFalse hclosing => exact ⟨own, hown, Nat.le_add_right _ _, by omega, .inr (by omega)⟩
    split at hgenerated
    case isTrue hopening => exact ⟨own, hown, Nat.le_add_right _ _, by omega, .inl (by omega)⟩
    case isFalse hinside =>
      obtain ⟨insertion, hmem, hmarks⟩ := ihchild (hnodup.sublist hrest.identities_prefix.sublist)
        hguards' own.innerStart _ hgenerated
      refine ⟨insertion, List.mem_append_left _ hmem, ?_⟩
      have hindex : own.innerStart + (index - (ExpansionTree.beginMarker importText file).length) =
          start + index := by omega
      exact hindex ▸ hmarks

end Yields

section Call

variable {provider : Provider σ} {directives : Directives} {limit : Nat} {text : String} {source : σ}
  {flat : FlatText}

/-- The tree of a library in which a file without a newline at its end is imported twice. -/
def openEndedTree : ExpansionTree :=
  .inlined "lib/a" ⟨"lib/a"⟩ (.copied "\n" none (.copied "int a;" none .done))
    (.copied "int x;\n" none (.alreadyImported "lib/a" ⟨"lib/a"⟩ .done))

end Call

end ShaderInline
