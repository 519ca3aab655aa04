import ShaderInline.Proofs.Success

/-!
# Contributions

What each line of a file adds to the output, in the order of the output. A contribution knows the
lines of import that it lies below, so that what an import brings in can be told from what surrounds
it. A line that is passed over contributes nothing, and has its place all the same.

A file that is read has not been read before. So the lines of a file and the import lines above it
belong to different files, and no file contributes in two places.
-/
namespace ShaderInline

variable {σ : Type}

structure Contribution where
  /-- The contributing line and the import lines above it, innermost first. -/
  place : List (Path × Nat)
  origins : List Origin

namespace Contribution

/-- Whether a line of a file was copied. -/
def Copies (part : Contribution) (file : Path) (number : Nat) : Prop :=
  .source file number ∈ part.origins

/-- Whether a line of a file contributed this, itself or by what it imports. -/
def IsAt (part : Contribution) (file : Path) (number : Nat) : Prop := (file, number) ∈ part.place

/-- Whether two contributions may stand in this order. What a line contributes, and what its import
brings in, stands behind the copied lines with smaller numbers and before those with larger ones. -/
def Precedes (first second : Contribution) : Prop :=
  ∀ file m n, (first.Copies file m → second.IsAt file n → m < n) ∧
    (first.IsAt file m → second.Copies file n → m < n)

/-- Whether the lines below `above` that a contribution belongs to satisfy `P`. A copied line is one
of them, and is all of the contribution. -/
def Within (part : Contribution) (above : List (Path × Nat)) (P : Path → Nat → Prop) : Prop :=
  ∃ own, part.place = own ++ above ∧ (∀ file number, (file, number) ∈ own → P file number) ∧
    ∀ file number, part.Copies file number →
      (file, number) ∈ own ∧ part.origins = [.source file number]

variable {part first second : Contribution} {above : List (Path × Nat)} {P Q : Path → Nat → Prop}
  {file : Path} {number : Nat}

theorem Within.mono (h : part.Within above P) (hsub : ∀ file number, P file number → Q file number) :
    part.Within above Q := by
  obtain ⟨own, hplace, hown, hcopied⟩ := h
  exact ⟨own, hplace, fun _ _ hmem => hsub _ _ (hown _ _ hmem), hcopied⟩

theorem Within.copies (h : part.Within above P) (hcopied : part.Copies file number) :
    P file number := by
  obtain ⟨own, _, hown, hmem⟩ := h
  exact hown _ _ (hmem _ _ hcopied).1

theorem Within.isAt (h : part.Within above P) (hat : part.IsAt file number) :
    P file number ∨ (file, number) ∈ above := by
  obtain ⟨own, hplace, hown, _⟩ := h
  rw [IsAt, hplace, List.mem_append] at hat
  exact hat.imp_left (hown file number)

theorem Within.isAt_of_copies (h : part.Within above P) (hcopied : part.Copies file number) :
    part.IsAt file number ∧ part.origins = [.source file number] := by
  obtain ⟨own, hplace, _, hmem⟩ := h
  obtain ⟨hown, horigins⟩ := hmem _ _ hcopied
  refine ⟨?_, horigins⟩
  rw [IsAt, hplace]
  exact List.mem_append_left _ hown

/-- The line above becomes one of the lines that are looked at. -/
theorem Within.outward (h : part.Within ((file, number) :: above) P)
    (hline : Q file number) (hsub : ∀ other n, P other n → Q other n) : part.Within above Q := by
  obtain ⟨own, hplace, hown, hcopied⟩ := h
  refine ⟨own ++ [(file, number)], by simp [hplace], ?_, ?_⟩
  · intro other n hmem
    rw [List.mem_append, List.mem_singleton] at hmem
    rcases hmem with hmem | hmem
    · exact hsub _ _ (hown _ _ hmem)
    · cases hmem
      exact hline
  · intro other n hmem
    obtain ⟨hown, horigins⟩ := hcopied other n hmem
    exact ⟨List.mem_append_left _ hown, horigins⟩

theorem Precedes.of_within (hfirst : first.Within above P) (hsecond : second.Within above Q)
    (horder : ∀ file m n, P file m → Q file n → m < n)
    (hP : ∀ file m n, P file m → (file, n) ∉ above)
    (hQ : ∀ file m n, Q file m → (file, n) ∉ above) : first.Precedes second := by
  intro file m n
  constructor
  · intro hcopied hat
    have hm := hfirst.copies hcopied
    rcases hsecond.isAt hat with hn | habove
    · exact horder file m n hm hn
    · exact absurd habove (hP file m n hm)
  · intro hat hcopied
    have hn := hsecond.copies hcopied
    rcases hfirst.isAt hat with hm | habove
    · exact horder file m n hm hn
    · exact absurd habove (hQ file n m hn)

end Contribution

/-- The contribution of a marker. -/
def Contribution.marker (place : List (Path × Nat)) (lines : List OutputLine) : Contribution :=
  ⟨place, lines.map (·.origin)⟩

namespace ExpansionTree

/-- The contributions of an imported file between the markers of the import. -/
def bracketed (place : List (Path × Nat)) (importText : String) (file : Path)
    (content : List Contribution) : List Contribution :=
  .marker place (beginMarker importText file) :: (content ++ [.marker place (endMarker importText)])

/-- What the lines of `file` contribute from a given number on, below the import lines `above`. -/
def contributions : List (Path × Nat) → Path → Nat → ExpansionTree → List Contribution
  | _, _, _, done => []
  | above, file, _, alreadyIncluded => [.marker above (includedMarker file)]
  | above, file, number, copied _ _ rest =>
    ⟨(file, number) :: above, [.source file number]⟩ :: contributions above file (number + 1) rest
  | above, file, number, skipped _ rest =>
    ⟨(file, number) :: above, []⟩ :: contributions above file (number + 1) rest
  | above, file, number, alreadyImported importText _ rest =>
    .marker ((file, number) :: above) (importedMarker importText) ::
      contributions above file (number + 1) rest
  | above, file, number, inlined importText imported content rest =>
    bracketed ((file, number) :: above) importText file
        (contributions ((file, number) :: above) imported 1 content) ++
      contributions above file (number + 1) rest

end ExpansionTree

@[simp] theorem OutputLine.map_origin_closed (lines : List OutputLine) :
    (OutputLine.closed lines).map (·.origin) = lines.map (·.origin) := by
  induction lines with
  | nil => rfl
  | cons line lines ih =>
    cases lines with
    | nil => rfl
    | cons next lines => simpa [OutputLine.closed] using ih

/-- Together the contributions are the output. -/
theorem ExpansionTree.flatMap_contributions (tree : ExpansionTree) (above : List (Path × Nat))
    (file : Path) (number : Nat) :
    (tree.contributions above file number).flatMap (·.origins) =
      (tree.output file number).map (·.origin) := by
  induction tree generalizing above file number with
  | done | alreadyIncluded => simp [contributions, Contribution.marker, output]
  | copied line opened rest ih => simp [contributions, output, ih]
  | skipped line rest ih => simp [contributions, output, ih]
  | alreadyImported importText path rest ih =>
    simp [contributions, Contribution.marker, output, ih]
  | inlined importText path content rest ihcontent ih =>
    simp [contributions, bracketed, Contribution.marker, output, ihcontent, ih]

theorem Contribution.not_copies_marker (place : List (Path × Nat)) (text : String) (file : Path)
    (number : Nat) : ¬ (marker place (OutputLine.generated text)).Copies file number := by
  simp [marker, Copies, OutputLine.generated]

/-- A marker belongs to no line below `above`. -/
theorem Contribution.within_marker (above : List (Path × Nat)) (text : String)
    (P : Path → Nat → Prop) : (marker above (OutputLine.generated text)).Within above P := by
  refine ⟨[], rfl, by simp, ?_⟩
  intro file number hcopied
  exact absurd hcopied (not_copies_marker above text file number)

/-- What a line contributes by itself belongs to that line. -/
theorem Contribution.within_line {above : List (Path × Nat)} {P : Path → Nat → Prop} {file : Path}
    {number : Nat} {origins : List Origin} (hline : P file number)
    (hcopied : ∀ other n, .source other n ∈ origins →
      (other, n) = (file, number) ∧ origins = [.source file number]) :
    Contribution.Within ⟨(file, number) :: above, origins⟩ above P := by
  refine ⟨[(file, number)], rfl, ?_, ?_⟩
  · intro other n hmem
    cases List.mem_singleton.mp hmem
    exact hline
  · intro other n hmem
    obtain ⟨hsame, horigins⟩ := hcopied other n hmem
    cases hsame
    exact ⟨List.mem_singleton_self _, horigins⟩

/-- A line that brings in no file has one contribution, which is at most a copy of that line. -/
theorem Passes.contributions {provider : Provider σ} {directives : Directives} {opened : OpenFiles}
    {file : Path} {number skip left : Nat} {line : String} {lines : List String}
    {run after : Run σ} {node : ExpansionTree → ExpansionTree}
    (h : Passes provider directives opened file number line lines skip run node left after) :
    ∃ origins, (∀ other n, .source other n ∈ origins →
        (other, n) = (file, number) ∧ origins = [.source file number]) ∧
      ∀ above rest, (node rest).contributions above file number =
        ⟨(file, number) :: above, origins⟩ :: rest.contributions above file (number + 1) := by
  cases h with
  | inBlock | plain | opening | skippedBlock => exact ⟨_, by simp, fun _ _ => rfl⟩
  | alreadyImported =>
    refine ⟨_, fun other n hmem => ?_, fun _ _ => rfl⟩
    exact absurd hmem (Contribution.not_copies_marker ((file, number) :: []) _ _ _)

/-- Whether a file was first read between two states of a run. -/
def Run.ReadsUntil (run after : Run σ) (path : Path) : Prop :=
  path.components ∉ run.identities ∧ path.components ∈ after.identities

theorem Run.ReadsUntil.widen {run inner middle after : Run σ} {path : Path}
    (h : inner.ReadsUntil middle path) (hbefore : run.identities ⊆ inner.identities)
    (hafter : middle.identities ⊆ after.identities) : run.ReadsUntil after path :=
  ⟨fun hmem => h.1 (hbefore hmem), hafter h.2⟩

/-- A file that is asked for was not asked for before, if no file is asked for twice. -/
theorem Run.readsUntil_of_asked {provider : Provider σ} {run after : Run σ} {path : Path}
    {depth : Nat} (h : (run.asked provider path depth).identities <+: after.identities)
    (hnodup : after.identities.Nodup) : run.ReadsUntil after path := by
  rw [Run.identities_asked] at h
  have hbefore := hnodup.sublist h.sublist
  refine ⟨fun hmem => ?_, h.subset (by simp)⟩
  exact (List.nodup_append.mp hbefore).2.2 _ hmem _ List.mem_cons_self rfl

/-- The lines that one line of a file may contribute: itself, and those of the files that are read
for it. -/
def Run.CoversLine (run after : Run σ) (file : Path) (number : Nat) (path : Path) (n : Nat) : Prop :=
  path = file ∧ n = number ∨ run.ReadsUntil after path

/-- The lines that the lines of a file from a number on may contribute. -/
def Run.CoversLines (run after : Run σ) (file : Path) (number : Nat) (path : Path) (n : Nat) :
    Prop :=
  path = file ∧ number ≤ n ∨ run.ReadsUntil after path

/-- The lines that a task may contribute. -/
def Task.Covers (run after : Run σ) : Task → Path → Nat → Prop
  | .file _ => fun path _ => run.ReadsUntil after path
  | .lines importer _ number _ => run.CoversLines after importer number

def Task.contributions (above : List (Path × Nat)) (tree : ExpansionTree) :
    Task → List Contribution
  | .file path => tree.contributions above path 1
  | .lines importer _ number _ => tree.contributions above importer number

/-- Whether the import lines `above` a task belong to files that were read, and that the task does
not walk. -/
def Task.LiesBelow (run : Run σ) (above : List (Path × Nat)) : Task → Prop
  | .file _ => ∀ path n, (path, n) ∈ above → path.components ∈ run.identities
  | .lines importer _ _ _ =>
    ∀ path n, (path, n) ∈ above → path.components ∈ run.identities ∧ path ≠ importer

section Covers

variable {run middle after : Run σ} {file path : Path} {number n : Nat}
  {above : List (Path × Nat)} {part first second : Contribution}

theorem Run.CoversLines.tail (h : middle.CoversLines after file (number + 1) path n)
    (hrun : run.identities ⊆ middle.identities) : run.CoversLines after file number path n := by
  rcases h with ⟨hfile, hle⟩ | hreads
  · exact .inl ⟨hfile, by omega⟩
  · exact .inr (hreads.widen hrun (List.Subset.refl _))

theorem Run.CoversLine.lines (h : run.CoversLine middle file number path n)
    (hmiddle : middle.identities ⊆ after.identities) : run.CoversLines after file number path n := by
  rcases h with ⟨hfile, hn⟩ | hreads
  · exact .inl ⟨hfile, by omega⟩
  · exact .inr (hreads.widen (List.Subset.refl _) hmiddle)

/-- What belongs to a line stands in front of what belongs to the lines behind it. -/
theorem Contribution.Within.precedes (hfirst : first.Within above (run.CoversLine middle file number))
    (hsecond : second.Within above (middle.CoversLines after file (number + 1)))
    (hfile : file.components ∈ run.identities) (hgrown : run.identities ⊆ middle.identities)
    (habove : ∀ path n, (path, n) ∈ above → path.components ∈ run.identities ∧ path ≠ file) :
    first.Precedes second := by
  refine .of_within hfirst hsecond ?_ ?_ ?_
  · rintro path m n (⟨rfl, rfl⟩ | hreads) (⟨hsame, hle⟩ | hlater)
    · omega
    · exact absurd (hgrown hfile) hlater.1
    · exact absurd (hsame ▸ hfile) hreads.1
    · exact absurd hreads.2 hlater.1
  · rintro path m n (⟨rfl, rfl⟩ | hreads) hmem
    · exact (habove _ _ hmem).2 rfl
    · exact hreads.1 (habove _ _ hmem).1
  · rintro path m n (⟨rfl, _⟩ | hlater) hmem
    · exact (habove _ _ hmem).2 rfl
    · exact hlater.1 (hgrown (habove _ _ hmem).1)

variable {provider : Provider σ} {directives : Directives} {importText text : String}
  {trailing : Option String} {lines : List String} {skip depth : Nat}

theorem Task.LiesBelow.entered (h : (Task.file path).LiesBelow run above)
    (hnew : path.components ∉ run.identities) :
    (Task.lines path lines number skip).LiesBelow
      ((run.asked provider path depth).begun directives path text) above := by
  intro other n hmem
  have hread := h other n hmem
  refine ⟨by simp [hread], ?_⟩
  rintro rfl
  exact hnew hread

/-- The import line lies above the imported file. -/
theorem Task.LiesBelow.imported (h : (Task.lines file lines number skip).LiesBelow run above)
    (hfile : file.components ∈ run.identities) :
    (Task.file path).LiesBelow (run.consulted provider file number importText trailing)
      ((file, number) :: above) := by
  intro other n hmem
  rw [Run.identities_consulted]
  rcases List.mem_cons.mp hmem with hsame | hmem
  · cases hsame
    exact hfile
  · exact (h other n hmem).1

/-- The lines behind a line lie below the same import lines. -/
theorem Task.LiesBelow.tail {rest : List String} {m left : Nat}
    (h : (Task.lines file lines number skip).LiesBelow run above)
    (hgrown : run.identities ⊆ middle.identities) :
    (Task.lines file rest m left).LiesBelow middle above := by
  intro other n hmem
  obtain ⟨hread, hother⟩ := h other n hmem
  exact ⟨hgrown hread, hother⟩

variable {content : List Contribution}

theorem ExpansionTree.bracketed_within {P : Path → Nat → Prop}
    (hcontent : ∀ part ∈ content, part.Within above P) :
    ∀ part ∈ bracketed above importText file content, part.Within above P := by
  intro part hpart
  rw [bracketed, List.mem_cons, List.mem_append, List.mem_singleton] at hpart
  rcases hpart with rfl | hpart | rfl
  · exact Contribution.within_marker _ _ _
  · exact hcontent part hpart
  · exact Contribution.within_marker _ _ _

/-- Markers keep the order of what they enclose. -/
theorem ExpansionTree.bracketed_pairwise {P : Path → Nat → Prop}
    (hcontent : ∀ part ∈ content, part.Within above P)
    (hP : ∀ path m n, P path m → (path, n) ∉ above)
    (hpairs : content.Pairwise Contribution.Precedes) :
    (bracketed above importText file content).Pairwise Contribution.Precedes := by
  have hopening : ∀ text, ∀ part : Contribution, part.Within above P →
      (Contribution.marker above (OutputLine.generated text)).Precedes part := by
    intro text part hpart
    exact .of_within (Contribution.within_marker above text fun _ _ => False) hpart
      (fun _ _ _ h => h.elim) (fun _ _ _ h => h.elim) hP
  have hclosing : ∀ text, ∀ part : Contribution, part.Within above P →
      part.Precedes (.marker above (OutputLine.generated text)) := by
    intro text part hpart
    exact .of_within hpart (Contribution.within_marker above text fun _ _ => False)
      (fun _ _ _ _ h => h.elim) hP (fun _ _ _ h => h.elim)
  have hopened : ∀ part ∈ bracketed above importText file content, part.Within above P :=
    bracketed_within hcontent
  rw [bracketed, List.pairwise_cons, List.pairwise_append]
  refine ⟨fun part hpart => ?_, hpairs, List.pairwise_singleton _ _, fun part hpart last hlast => ?_⟩
  · exact hopening _ part (hopened part (List.mem_cons_of_mem _ hpart))
  · rw [List.mem_singleton.mp hlast]
    exact hclosing _ part (hcontent part hpart)

end Covers

namespace Yields

variable {provider : Provider σ} {directives : Directives} {opened : OpenFiles} {task : Task}
  {run middle after : Run σ} {tree : ExpansionTree} {path : Path}

/-- A file that is walked has not been read before, if no file is read twice. -/
theorem readsUntil {content : String} {depth : Nat} {number skip : Nat} {lines : List String}
    (h : Yields provider directives opened (.lines path lines number skip)
      ((run.asked provider path depth).begun directives path content) tree after)
    (hnodup : after.identities.Nodup) : run.ReadsUntil after path := by
  have hprefix := h.identities_prefix
  rw [Run.identities_begun] at hprefix
  exact Run.readsUntil_of_asked hprefix hnodup

/-- A file that is expanded has not been read before, if no file is read twice. -/
theorem readsUntil_file (h : Yields provider directives opened (.file path) run tree after)
    (hnodup : after.identities.Nodup) : run.ReadsUntil after path := by
  cases h with
  | entered _ _ _ hwalk => exact hwalk.readsUntil hnodup
  | alreadyIncluded =>
    have hasked : Run.Steps provider (run.asked provider path (opened.push path).size) _ :=
      .single (.skippedFile _ path)
    exact Run.readsUntil_of_asked (Run.identities_prefix hasked.events_prefix) hnodup

/-- When all guarded files were read, a file that is expanded is not guarded, if no file is read
twice. -/
theorem not_isGuarded (h : Yields provider directives opened (.file path) run tree after)
    (hguards : run.GuardsRead) (hnodup : after.identities.Nodup) : ¬ run.state.isGuarded path := by
  intro hguarded
  exact (h.readsUntil_file hnodup).1 (hguards path hguarded)

/-- A task contributes its own lines and those of the files that it reads. -/
theorem within (h : Yields provider directives opened task run tree after)
    (hnodup : after.identities.Nodup) (above : List (Path × Nat)) :
    ∀ part ∈ task.contributions above tree, part.Within above (task.Covers run after) := by
  induction h generalizing above with
  | alreadyIncluded =>
    intro part hpart
    rw [List.mem_singleton.mp hpart]
    exact Contribution.within_marker _ _ _
  | entered hclosed hread hnew hwalk ih =>
    intro part hpart
    refine (ih hnodup above part hpart).mono ?_
    rintro other n (⟨rfl, _⟩ | hreads)
    · exact hwalk.readsUntil hnodup
    · exact hreads.widen (by simp) (List.Subset.refl _)
  | done => simp [Task.contributions, ExpansionTree.contributions]
  | @passed _ file number line lines skip run node left middle rest after hat hline hrest ih =>
    obtain ⟨origins, hcopied, hparts⟩ := hline.contributions
    have hsame := hline.identities_eq
    intro part hpart
    rw [Task.contributions, hparts, List.mem_cons] at hpart
    rcases hpart with rfl | hpart
    · exact Contribution.within_line (.inl ⟨rfl, Nat.le_refl _⟩) hcopied
    · exact (ih hnodup above part hpart).mono fun _ _ hcovers => hcovers.tail (by rw [hsame]; simp)
  | @inlined _ file number line lines importText trailing path run content middle rest after
      hat hline hresolve hfresh hchild hrest ihchild ihrest =>
    have hmiddle : middle.identities <+: after.identities := hrest.identities_prefix
    have hgrown := hchild.identities_prefix
    rw [Run.identities_consulted] at hgrown
    intro part hpart
    rw [Task.contributions, ExpansionTree.contributions, List.mem_append] at hpart
    rcases hpart with hpart | hpart
    · have himport := ExpansionTree.bracketed_within
        (ihchild (hnodup.sublist hmiddle.sublist) _) part hpart
      refine himport.outward (.inl ⟨rfl, Nat.le_refl _⟩) fun other n hreads => .inr ?_
      exact hreads.widen (by simp) hmiddle.subset
    · refine (ihrest hnodup above part hpart).mono fun _ _ hcovers => hcovers.tail ?_
      exact hgrown.subset

/-- Contributions stand in the order of the lines that they belong to. -/
theorem contributions_pairwise (h : Yields provider directives opened task run tree after)
    (hnodup : after.identities.Nodup) {above : List (Path × Nat)} (habove : task.LiesBelow run above) :
    (task.contributions above tree).Pairwise Contribution.Precedes := by
  induction h generalizing above with
  | alreadyIncluded => exact List.pairwise_singleton _ _
  | @entered _ path run _ tree after hclosed hread hnew hwalk ih =>
    exact ih hnodup (habove.entered (hwalk.readsUntil hnodup).1)
  | done => exact List.Pairwise.nil
  | @passed _ file number line lines skip run node left middle rest after hat hline hrest ih =>
    obtain ⟨origins, hcopied, hparts⟩ := hline.contributions
    have hsame := hline.identities_eq
    have hfile : file.components ∈ run.identities := List.mem_map_of_mem hat.mem_reads
    rw [Task.contributions, hparts, List.pairwise_cons]
    refine ⟨fun part hpart => ?_, ih hnodup (habove.tail (by rw [hsame]; simp))⟩
    have hown : Contribution.Within ⟨(file, number) :: above, origins⟩ above
      (run.CoversLine middle file number) := Contribution.within_line (.inl ⟨rfl, rfl⟩) hcopied
    exact hown.precedes (hrest.within hnodup above part hpart) hfile (by rw [hsame]; simp) habove
  | @inlined _ file number line lines importText trailing path run content middle rest after
      hat hline hresolve hfresh hchild hrest ihchild ihrest =>
    have hmiddle : middle.identities.Nodup := hnodup.sublist hrest.identities_prefix.sublist
    have hgrown := hchild.identities_prefix
    rw [Run.identities_consulted] at hgrown
    have hfile : file.components ∈ run.identities := List.mem_map_of_mem hat.mem_reads
    have hbelow : (Task.file path).LiesBelow
        (run.consulted provider file number importText trailing) ((file, number) :: above) :=
      habove.imported hfile
    have hwithin := hchild.within hmiddle ((file, number) :: above)
    have himport : (ExpansionTree.bracketed ((file, number) :: above) importText file
        (content.contributions ((file, number) :: above) path 1)).Pairwise Contribution.Precedes :=
      ExpansionTree.bracketed_pairwise hwithin (fun other m n hreads hmem =>
        hreads.1 (hbelow other n hmem)) (ihchild hmiddle hbelow)
    rw [Task.contributions, ExpansionTree.contributions, List.pairwise_append]
    refine ⟨himport, ihrest hnodup (habove.tail hgrown.subset), ?_⟩
    intro first hfirst second hsecond
    have hown := (ExpansionTree.bracketed_within hwithin first hfirst).outward
      (Q := run.CoversLine middle file number) (.inl ⟨rfl, rfl⟩)
      fun other n hreads => .inr (hreads.widen (by simp) (List.Subset.refl _))
    exact hown.precedes (hrest.within hnodup above second hsecond) hfile hgrown.subset habove

end Yields

/-- The number of a line of `file` that was copied. -/
def Origin.lineOf? (file : Path) : Origin → Option Nat
  | source other number => if other = file then some number else none
  | generated => none

theorem Origin.lineOf?_eq_some {file : Path} {origin : Origin} {number : Nat} :
    origin.lineOf? file = some number ↔ origin = .source file number := by
  cases origin <;> simp [lineOf?]

/-- Contributions in order give the copied lines of each file in order, and none of them twice. -/
theorem Contribution.pairwise_lineOf? {parts : List Contribution} {above : List (Path × Nat)}
    {P : Path → Nat → Prop} (hpairs : parts.Pairwise Precedes)
    (hwithin : ∀ part ∈ parts, part.Within above P) (file : Path) :
    ((parts.flatMap (·.origins)).filterMap (Origin.lineOf? file)).Pairwise (· < ·) := by
  rw [List.pairwise_filterMap, List.pairwise_flatMap]
  constructor
  · intro part hpart
    by_cases hcopied : ∃ other n, part.Copies other n
    · obtain ⟨other, n, hcopied⟩ := hcopied
      rw [((hwithin part hpart).isAt_of_copies hcopied).2]
      exact List.pairwise_singleton _ _
    · refine List.pairwise_of_forall_mem_list fun origin horigin _ _ m hm => ?_
      obtain rfl := Origin.lineOf?_eq_some.mp hm
      exact absurd ⟨file, m, horigin⟩ hcopied
  · refine hpairs.imp_of_mem fun hfirst hsecond hprecedes origin horigin next hnext m hm n hn => ?_
    rw [Origin.lineOf?_eq_some] at hm hn
    subst hm hn
    exact (hprecedes file m n).1 horigin ((hwithin _ hsecond).isAt_of_copies hnext).1

theorem Contribution.count_le_one {origins : List Origin} {file : Path}
    (h : (origins.filterMap (Origin.lineOf? file)).Pairwise (· < ·)) (number : Nat) :
    origins.count (.source file number) ≤ 1 := by
  have hcount : origins.count (.source file number) =
      (origins.filterMap (Origin.lineOf? file)).count number := by
    rw [List.count_filterMap, List.count]
    congr 1
    funext origin
    rw [Bool.eq_iff_iff, beq_iff_eq, beq_iff_eq, Origin.lineOf?_eq_some]
  rw [hcount]
  exact List.nodup_iff_count_le_one.mp (h.imp fun hlt => Nat.ne_of_lt hlt) number

end ShaderInline
