import ShaderInline.Proofs.Frontiers
import ShaderInline.Proofs.SourceMap

/-!
# The fate of every line

A call from a fresh state that succeeds has dealt with every line of every file that it read. The
line was copied once, or it is an import line that was acted on, or it lies in a block that was
passed over because its guard had been opened by a line further up in the output.

A walk moves its frontier over one line after the other, and settles each of them. Where a line
brings in a file, the frontier of the importing file waits behind that line.
-/
namespace ShaderInline

variable {σ : Type}

open Contribution (HasPlace before)

/-- The frontier behind a line that brings in no file, the guards known there, and what became of
the line. -/
theorem Passes.frontier {provider : Provider σ} {directives : Directives} {opened : OpenFiles}
    {file : Path} {number skip left : Nat} {line : String} {lines : List String}
    {final run middle : Run σ} {node : ExpansionTree → ExpansionTree} {parts : List Contribution}
    (h : Passes provider directives opened file number line lines skip run node left middle)
    (hat : final.Walks file number (line :: lines)) (hnodup : final.identities.Nodup)
    (hfront : Frontier final directives parts file (line :: lines) number skip)
    (htells : final.TellsGuards run directives parts) (above : List (Path × Nat)) :
    ∃ own : Contribution, own.place = (file, number) :: above ∧
      (∀ rest : ExpansionTree, (node rest).contributions above file number =
        own :: rest.contributions above file (number + 1)) ∧
      final.TellsGuards middle directives (parts ++ [own]) ∧
      Frontier final directives (parts ++ [own]) file lines (number + 1) left ∧
      final.Settles directives (parts ++ [own]) file number line := by
  cases h with
  | inBlock =>
    exact ⟨_, rfl, fun _ => rfl, htells.append (by simp [Contribution.Copies]),
      hfront.next_inBlock hat hnodup above⟩
  | @alreadyImported importText trailing path run hline hresolve hknown =>
    have hcopied := Contribution.not_copies_marker ((file, number) :: above)
      ("// Already imported: " ++ importText ++ "\n")
    have hnames := htells.append hcopied
    exact ⟨_, rfl, fun _ => rfl, hnames.of_eq (run.namedGuards_consulted _ _ _ _ _),
      hfront.next_import hat hnodup hline rfl (hcopied _ _)
        fun n => Contribution.not_hasPlace_line above _⟩
  | plain hline hguard =>
    have hnone : ∀ name last, ¬ final.IsBlock directives file name number last := by
      intro name last hblock
      have hopens := ((hat.isBlock_iff hnodup).mp hblock).2.1
      rw [hguard] at hopens
      cases hopens
    refine ⟨_, rfl, fun _ => rfl, fun name => ?_,
      hfront.next_copied (fun name last hblock => absurd hblock (hnone name last)) above⟩
    rw [htells name, Run.hasOpened_append, Run.hasOpened_copied]
    simp [hnone]
  | @opening name run hline hguard hfresh =>
    have hblock : ∀ other last, final.IsBlock directives file other number last ↔
        other = name ∧ last = number + blockLength 1 lines := by
      intro other last
      rw [hat.isBlock_iff hnodup, hguard, Option.some.injEq, eq_comm (a := name)]
      simp [hline]
    refine ⟨_, rfl, fun _ => rfl, fun other => ?_, hfront.next_copied ?_ above⟩
    · rw [Run.hasOpened_append, Run.hasOpened_copied, ← htells other]
      simp [Run.defined, hblock]
    · intro other last hother hopened
      obtain ⟨rfl, _⟩ := (hblock other last).mp hother
      exact hfresh ((htells _).mpr hopened)
  | @skippedBlock name run hline hguard hknown =>
    have hblock : final.IsBlock directives file name number (number + blockLength 1 lines) :=
      (hat.isBlock_iff hnodup).mpr ⟨hline, hguard, rfl⟩
    exact ⟨_, rfl, fun _ => rfl, htells.append (by simp [Contribution.Copies]),
      hfront.next_block hat hnodup hblock ((htells name).mp hknown) rfl above⟩

/-- What is to be known of the lines of a task. -/
def Task.HasFrontier (final : Run σ) (directives : Directives) (parts : List Contribution) :
    Task → Prop
  | .file _ => True
  | .lines importer rest number skip => Frontier final directives parts importer rest number skip

/-- The files of all contributing lines have been read. -/
def Run.KnowsPlaces (run : Run σ) (parts : List Contribution) : Prop :=
  ∀ path n, HasPlace parts path n → path.components ∈ run.identities

section Walk

variable {provider : Provider σ} {directives : Directives} {opened : OpenFiles} {task : Task}
  {final run after : Run σ} {tree : ExpansionTree} {path file : Path} {above : List (Path × Nat)}
  {parts more : List Contribution} {number : Nat}

theorem Frontier.first (hknown : run.KnowsPlaces parts) (hnew : path.components ∉ run.identities)
    (lines : List String) : Frontier final directives parts path lines 1 0 where
  walked := by omega
  ahead := fun n _ hplace => hnew (hknown path n hplace)
  ended := by
    intro first last hskips hlt
    have hpos := hskips.2.choose_spec.1.first_pos
    omega
  skipped := by omega
  block := ⟨0, by simp [blockLength]⟩

theorem Contribution.isAt_of_head? {part : Contribution}
    (h : part.place.head? = some (file, number)) : part.IsAt file number := List.mem_of_mem_head? h

theorem Run.KnowsPlaces.append (h : run.KnowsPlaces parts)
    (hgrown : run.identities ⊆ after.identities)
    (hmore : ∀ part ∈ more, ∀ path n, part.place.head? = some (path, n) →
      path.components ∈ after.identities) :
    after.KnowsPlaces (parts ++ more) := by
  intro path n hplace
  rcases Contribution.hasPlace_append.mp hplace with hplace | ⟨part, hpart, hhead⟩
  · exact hgrown (h path n hplace)
  · exact hmore part hpart path n hhead

theorem Run.KnowsPlaces.append_line {own : Contribution} (h : run.KnowsPlaces parts)
    (hgrown : run.identities ⊆ after.identities) (hfile : file.components ∈ run.identities)
    (hown : own.place = (file, number) :: above) : after.KnowsPlaces (parts ++ [own]) := by
  refine h.append hgrown fun part hpart path n hhead => ?_
  rw [List.mem_singleton.mp hpart, hown] at hhead
  cases hhead
  exact hgrown hfile

/-- A line from here on is the one that was just settled, or it lies behind that one. -/
theorem Run.Settles.from_line {line text : String} {lines : List String} {n : Nat}
    (h : final.Settles directives parts file number line)
    (hat : final.Walks file number (line :: lines)) (hnodup : final.identities.Nodup)
    (hbehind : number < n → final.Settles directives (parts ++ more) file n text)
    (hle : number ≤ n) (htext : final.HasLine file n text) :
    final.Settles directives (parts ++ more) file n text := by
  rcases Nat.lt_or_eq_of_le hle with hlt | rfl
  · exact hbehind hlt
  · rw [hat.eq_of_hasLine htext hnodup]
    exact h.append more

/-- The frontier behind an import line that brings in a file, the guards known there, and what became
of the line. -/
theorem Frontier.imported {line importText : String} {lines : List String} {trailing : Option String}
    {content : List Contribution}
    (h : Frontier final directives parts file (line :: lines) number 0)
    (hat : final.Walks file number (line :: lines)) (hnodup : final.identities.Nodup)
    (hline : ImportReading.ofLine directives line = .directive importText trailing)
    (hfile : file.components ∈ run.identities) (hgrown : run.identities ⊆ after.identities)
    (habove : (Task.lines file (line :: lines) number 0).LiesBelow run above)
    (hknown : run.KnowsPlaces parts)
    (htells : final.TellsGuards after directives
      (parts ++ [.marker ((file, number) :: above) (ExpansionTree.beginMarker importText file)] ++
        content))
    (hcontent : ∀ part ∈ content, part.Within ((file, number) :: above)
      fun path _ => run.ReadsUntil after path) :
    let parts' := parts ++
      ExpansionTree.bracketed ((file, number) :: above) importText file content
    final.TellsGuards after directives parts' ∧ after.KnowsPlaces parts' ∧
      Frontier final directives parts' file lines (number + 1) 0 ∧
      final.Settles directives parts' file number line := by
  intro parts'
  have hsites : ∀ part ∈ ExpansionTree.bracketed ((file, number) :: above) importText file content,
      ∀ path n, part.place.head? = some (path, n) →
        run.ReadsUntil after path ∨ (path, n) = (file, number) ∨ (path, n) ∈ above := by
    intro part hpart path n hhead
    have hwithin := ExpansionTree.bracketed_within hcontent part hpart
    exact (hwithin.isAt (Contribution.isAt_of_head? hhead)).imp_right List.mem_cons.mp
  refine ⟨?_, hknown.append hgrown fun part hpart path n hhead => ?_, ?_⟩
  · have hclosed := htells.append (Contribution.not_copies_marker ((file, number) :: above)
      ("// END IMPORT: " ++ importText ++ "\n\n"))
    simpa [parts', ExpansionTree.bracketed, ExpansionTree.endMarker] using hclosed
  · rcases hsites part hpart path n hhead with hreads | hsame | hmem
    · exact hreads.2
    · cases hsame
      exact hgrown hfile
    · exact hgrown (habove path n hmem).1
  · refine h.next_import hat hnodup hline rfl
      (Contribution.not_copies_marker ((file, number) :: above) _ _ _) fun n hlt hplace => ?_
    obtain ⟨part, hpart, hhead⟩ := hplace
    rcases hsites part hpart file n hhead with hreads | hsame | hmem
    · exact hreads.1 hfile
    · cases hsame
      exact Nat.lt_irrefl _ hlt
    · exact (habove file n hmem).2 rfl

/-- Every line of a task, and of every file that it reads, has met its fate. -/
theorem Yields.settles (h : Yields provider directives opened task run tree after)
    (hnodup : final.identities.Nodup) (hfinal : after.events <+: final.events)
    (hguards : run.GuardsRead) (habove : task.LiesBelow run above)
    (htells : final.TellsGuards run directives parts) (hknown : run.KnowsPlaces parts)
    (hfront : task.HasFrontier final directives parts) :
    final.TellsGuards after directives (parts ++ task.contributions above tree) ∧
      ∀ path n line, task.Covers run after path n → final.HasLine path n line →
        final.Settles directives (parts ++ task.contributions above tree) path n line := by
  have hafter : after.identities.Nodup := hnodup.sublist (Run.identities_prefix hfinal).sublist
  induction h generalizing above parts with
  | @alreadyIncluded _ path run content hclosed hread honce hguarded =>
    have hfile := Yields.alreadyIncluded hclosed hread honce hguarded
    exact absurd hguarded (hfile.not_isGuarded hguards hafter)
  | @entered opened path run content tree after hclosed hread hnew hwalk ih =>
    have hown := hwalk.readsUntil hafter
    have hreads : after.reads <+: final.reads := hfinal.filterMap _
    have hpath := hreads.subset (Yields.entered hclosed hread hnew hwalk).mem_reads
    have hbegun : run.identities ⊆ ((run.asked provider path (opened.push path).size).begun
      directives path content).identities := by simp
    obtain ⟨hnames, hlines⟩ := ih hfinal ((Run.Steps.begun _ _ _ _ _ _).guardsRead hguards)
      (habove.entered hown.1) (htells.of_eq (Run.namedGuards_begun _ _ _ _))
      (fun other n hplace => hbegun (hknown other n hplace)) (.first hknown hown.1 _) hafter
    refine ⟨hnames, fun other n line hcovers hline => hlines other n line ?_ hline⟩
    by_cases hsame : other ≈ path
    · obtain rfl := Run.eq_of_mem_reads hnodup hline.mem_reads hpath hsame
      exact .inl ⟨rfl, hline.pos⟩
    · rw [Path.equiv_iff] at hsame
      exact .inr ⟨by simp [hcovers.1, hsame], hcovers.2⟩
  | @done _ file number skip run hat =>
    refine ⟨by simpa [Task.contributions, ExpansionTree.contributions] using htells, ?_⟩
    rintro path n line (⟨rfl, hle⟩ | hreads) hline
    · exact absurd hline ((hat.mono hfinal.subset).not_hasLine hle hnodup)
    · exact absurd hreads.2 hreads.1
  | @passed _ file number line lines skip run node left middle rest after hat hline hrest ih =>
    have hgrown := hline.steps.events_prefix.trans hrest.events_prefix
    have hwalks := hat.mono (hgrown.trans hfinal).subset
    have hsame := hline.identities_eq
    obtain ⟨own, hplace, hparts, hnames, hnext, hsettled⟩ :=
      hline.frontier hwalks hnodup hfront htells above
    have hknown' : middle.KnowsPlaces (parts ++ [own]) :=
      hknown.append_line (by rw [hsame]; simp) (List.mem_map_of_mem hat.mem_reads) hplace
    obtain ⟨hafterNames, hlines⟩ := ih hfinal (hline.steps.guardsRead hguards)
      (habove.tail (by rw [hsame]; simp)) hnames hknown' hnext hafter
    rw [Task.contributions, hparts, List.append_cons]
    refine ⟨hafterNames, fun other n text hcovers htext => ?_⟩
    rcases hcovers with ⟨rfl, hle⟩ | hreads
    · exact hsettled.from_line hwalks hnodup
        (fun hlt => hlines _ n text (.inl ⟨rfl, hlt⟩) htext) hle htext
    · exact hlines other n text (.inr (hreads.widen (by rw [hsame]; simp) (by simp))) htext
  | @inlined _ file number line lines importText trailing path run content middle rest after
      hat hline hresolve hfresh hchild hrest ihchild ihrest =>
    have hmiddle : middle.events <+: after.events := hrest.events_prefix
    have hconsulted := run.events_prefix_consulted provider file number importText trailing
    have hwalks := hat.mono
      ((hconsulted.trans hchild.events_prefix).trans (hmiddle.trans hfinal)).subset
    have hgrown := hchild.identities_prefix
    rw [Run.identities_consulted] at hgrown
    have hfile : file.components ∈ run.identities := List.mem_map_of_mem hat.mem_reads
    have hmiddleNodup : middle.identities.Nodup :=
      hafter.sublist (Run.identities_prefix hmiddle).sublist
    have hguards' := (Run.Steps.consulted run provider file number importText trailing).guardsRead
      hguards
    have hopening : ∀ other n, ¬ (Contribution.marker ((file, number) :: above)
        (ExpansionTree.beginMarker importText file)).Copies other n :=
      Contribution.not_copies_marker _ _
    have hopened : (run.consulted provider file number importText trailing).KnowsPlaces
        (parts ++ [.marker ((file, number) :: above)
          (ExpansionTree.beginMarker importText file)]) :=
      hknown.append_line (by simp) hfile rfl
    obtain ⟨hchildNames, hchildLines⟩ := ihchild (hmiddle.trans hfinal) hguards'
      (habove.imported hfile)
      ((htells.append hopening).of_eq (run.namedGuards_consulted _ _ _ _ _)) hopened trivial
      hmiddleNodup
    have hwithin : ∀ part ∈ content.contributions ((file, number) :: above) path 1,
        part.Within ((file, number) :: above) fun path _ => run.ReadsUntil middle path :=
      fun part hpart => (hchild.within hmiddleNodup _ part hpart).mono
        fun _ _ hreads => hreads.widen (by simp) (List.Subset.refl _)
    obtain ⟨hnames, hknown', hnext, hsettled⟩ := Frontier.imported hfront hwalks hnodup hline hfile
      hgrown.subset habove hknown hchildNames hwithin
    obtain ⟨hafterNames, hlines⟩ := ihrest hfinal (hchild.steps.guardsRead hguards')
      (habove.tail hgrown.subset) hnames hknown' hnext hafter
    have hparts : parts ++ Task.contributions above (.inlined importText path content rest)
        (.lines file (line :: lines) number 0) =
        parts ++ ExpansionTree.bracketed ((file, number) :: above) importText file
          (content.contributions ((file, number) :: above) path 1) ++
        rest.contributions above file (number + 1) := by
      simp [Task.contributions, ExpansionTree.contributions]
    rw [hparts]
    refine ⟨hafterNames, fun other n text hcovers htext => ?_⟩
    rcases hcovers with ⟨rfl, hle⟩ | hreads
    · exact hsettled.from_line hwalks hnodup
        (fun hlt => hlines _ n text (.inl ⟨rfl, hlt⟩) htext) hle htext
    · by_cases hchildReads : other.components ∈ middle.identities
      · have hsettled' := hchildLines other n text ⟨by simpa using hreads.1, hchildReads⟩ htext
        have hlater := (hsettled'.append [.marker ((file, number) :: above)
          (ExpansionTree.endMarker importText)]).append (rest.contributions above file (number + 1))
        simpa [ExpansionTree.bracketed, Task.contributions] using hlater
      · exact hlines other n text (.inr ⟨hchildReads, hreads.2⟩) htext

end Walk

/-- What can become of a line of a file that was read. -/
inductive Fate where
  | copied
  | imported
  | skipped
  deriving DecidableEq, Repr

/-- Whether this became of a line, in the light of all contributions to an output. -/
def Fate.Befalls (run : Run σ) (directives : Directives) (parts : List Contribution) (file : Path)
    (number : Nat) (line : String) : Fate → Prop
  | copied => (parts.flatMap (·.origins)).count (.source file number) = 1
  | imported => (parts.flatMap (·.origins)).count (.source file number) = 0 ∧
      (∃ importText trailing, ImportReading.ofLine directives line =
        .directive importText trailing) ∧ ¬ run.Skips directives parts file number
  | skipped => (parts.flatMap (·.origins)).count (.source file number) = 0 ∧
      run.Skips directives parts file number

section Call

variable {provider : Provider σ} {directives : Directives} {limit : Nat} {text : String} {source : σ}
  {flat : FlatText} {run : Run σ} {parts : List Contribution} {file : Path} {number : Nat}
  {line : String}

/-- A line that contributed something else was not copied. -/
theorem Contribution.count_eq_zero (hpairs : parts.Pairwise Precedes) {part : Contribution}
    (hpart : part ∈ parts) (hat : part.IsAt file number) (hcopied : ¬ part.Copies file number) :
    (parts.flatMap (·.origins)).count (.source file number) = 0 := by
  rw [List.count_eq_zero, List.mem_flatMap]
  rintro ⟨other, hother, hcopies⟩
  have hsymm : Std.Symm fun first second : Contribution =>
      first.Precedes second ∨ second.Precedes first := ⟨fun _ _ => Or.symm⟩
  have hdistinct : other ≠ part := by
    rintro rfl
    exact hcopied hcopies
  have hordered : parts.Pairwise fun first second => first.Precedes second ∨ second.Precedes first :=
    hpairs.imp Or.inl
  rcases List.Pairwise.forall hordered hother hpart hdistinct with hbefore | hbehind
  · exact Nat.lt_irrefl _ ((hbefore file number number).1 hcopies hat)
  · exact Nat.lt_irrefl _ ((hbehind file number number).2 hat hcopies)

theorem Run.Settles.existsUnique (h : run.Settles directives parts file number line)
    (hpairs : parts.Pairwise Contribution.Precedes)
    (honce : (parts.flatMap (·.origins)).count (.source file number) ≤ 1) :
    ∃! fate : Fate, fate.Befalls run directives parts file number line := by
  rcases h.2 with ⟨part, hpart, hcopied⟩ | ⟨⟨part, hpart, hat, hcopied⟩, hskips | ⟨himport, hkept⟩⟩
  · have hmem : Origin.source file number ∈ parts.flatMap (·.origins) :=
      List.mem_flatMap.mpr ⟨part, hpart, hcopied⟩
    have hcount : (parts.flatMap (·.origins)).count (.source file number) = 1 :=
      Nat.le_antisymm honce (List.count_pos_iff.mpr hmem)
    refine ⟨.copied, hcount, fun fate hfate => ?_⟩
    cases fate <;> simp_all [Fate.Befalls]
  · have hcount := Contribution.count_eq_zero hpairs hpart hat hcopied
    refine ⟨.skipped, ⟨hcount, hskips⟩, fun fate hfate => ?_⟩
    cases fate <;> simp_all [Fate.Befalls]
  · have hcount := Contribution.count_eq_zero hpairs hpart hat hcopied
    refine ⟨.imported, ⟨hcount, himport, hkept⟩, fun fate hfate => ?_⟩
    cases fate <;> simp_all [Fate.Befalls]

theorem Run.tellsGuards_of_fresh (final : Run σ) (source : σ) (directives : Directives) :
    final.TellsGuards { source } directives [] := by
  intro name
  simp [Run.HasOpened, GuardSet.contains]

/-- In a call from a fresh state that succeeds, every line of every file that was read was copied
once, or was acted on as an import, or lies in a block whose guard had been opened further up in the
output, and one of these only. The copied lines of a file keep their order, and what an import
brings in stands between the copied lines before the import and those behind it. -/
theorem call_line_fates
    (h : (provider.call directives limit text {} {} source).result = .ok flat) :
    let run := (provider.call directives limit text {} {} source).run
    ∃ tree, (expandFile provider directives limit {} (Path.normal text) { source }).1 = .ok tree ∧
      flat = tree.flatten (Path.normal text) ∧
      let parts := tree.contributions [] (Path.normal text) 1
      flat.origins = parts.flatMap (·.origins) ∧ run.identities.Nodup ∧
      (∀ file number, .source file number ∈ flat.origins → ∃ line, run.HasLine file number line) ∧
      (∀ file number line, run.HasLine file number line →
        ∃! fate : Fate, fate.Befalls run directives parts file number line) ∧
      (∀ file, (flat.origins.filterMap (Origin.lineOf? file)).Pairwise (· < ·)) ∧
      parts.Pairwise Contribution.Precedes := by
  intro run
  obtain ⟨tree, htree, hflat, hyields⟩ := call_yields h
  have hnodup : run.identities.Nodup := call_identities_nodup _ _ _ _ _ _ _
  have hwithin := hyields.within hnodup []
  have hbelow : (Task.file (Path.normal text)).LiesBelow ({ source } : Run σ) [] := by
    simp [Task.LiesBelow]
  have hpairs : (tree.contributions [] (Path.normal text) 1).Pairwise Contribution.Precedes :=
    hyields.contributions_pairwise hnodup hbelow
  have hincreasing := Contribution.pairwise_lineOf? hpairs hwithin
  have horigins : flat.origins =
      (tree.contributions [] (Path.normal text) 1).flatMap (·.origins) := by
    rw [hflat, tree.flatMap_contributions]
    rfl
  obtain ⟨_, hsettles⟩ := hyields.settles hnodup List.prefix_rfl (Run.guardsRead_of_fresh source)
    hbelow (Run.tellsGuards_of_fresh run source directives)
    (by simp [Run.KnowsPlaces, HasPlace]) trivial
  refine ⟨tree, htree, hflat, horigins, hnodup, fun file number hmem => ?_,
    fun file number line hline => ?_, ?_, hpairs⟩
  · obtain ⟨limit, hexpands⟩ := hyields.exists_expands
    have hmapped : Mapped run false (tree.output (Path.normal text) 1) :=
      hexpands.mapped rfl (List.Subset.refl _)
    rw [hflat] at hmem
    exact hmapped.hasLine hmem
  · have hread : file.components ∈ run.identities := List.mem_map_of_mem hline.mem_reads
    have hsettled := hsettles file number line ⟨by simp [Run.identities, Run.reads], hread⟩ hline
    exact hsettled.existsUnique hpairs (Contribution.count_le_one (hincreasing file) number)
  · rw [horigins]
    exact hincreasing

/-- A library in which a file begins a block with a guard that an imported file has opened. -/
def sharedGuard : Library :=
  .ofFiles [("main", "#import \"a\"\n#ifndef A\n#define A\nint m;\n#endif\nint x;\n"),
    ("a", "#ifndef A\n#define A\nint a;\n#endif\n")]

def sharedGuardText : FlatText where
  text := "\n// BEGIN IMPORT: a (from main)\n#ifndef A\n#define A\nint a;\n#endif\n" ++
    "// END IMPORT: a\n\nint x;\n"
  origins := [.generated, .generated, .source ⟨"a"⟩ 1, .source ⟨"a"⟩ 2, .source ⟨"a"⟩ 3,
    .source ⟨"a"⟩ 4, .generated, .generated, .source ⟨"main"⟩ 6]

theorem call_line_fates_sharedGuard :
    let run := (sharedGuard.provider.call {} 3 "main" {} {} ()).run
    (sharedGuard.provider.call {} 3 "main" {} {} ()).result = .ok sharedGuardText ∧
    run.HasLine ⟨"main"⟩ 4 "int m;\n" ∧
    ∃ parts, sharedGuardText.origins = parts.flatMap (·.origins) ∧
      Fate.skipped.Befalls run {} parts ⟨"main"⟩ 4 "int m;\n" ∧
      Fate.copied.Befalls run {} parts ⟨"main"⟩ 6 "int x;\n" ∧
      parts.Pairwise Contribution.Precedes := by
  intro run
  have hresult : (sharedGuard.provider.call {} 3 "main" {} {} ()).result = .ok sharedGuardText := by
    decide +kernel
  have hread : run.HasRead ⟨"main"⟩
      "#import \"a\"\n#ifndef A\n#define A\nint m;\n#endif\nint x;\n" := by decide +kernel
  have hline : run.HasLine ⟨"main"⟩ 4 "int m;\n" := ⟨_, hread, by decide +kernel⟩
  obtain ⟨tree, _, _, horigins, _, _, hfates, _, hpairs⟩ := call_line_fates hresult
  refine ⟨hresult, hline, _, horigins, ?_, ?_, hpairs⟩
  · obtain ⟨fate, hfate, _⟩ := hfates ⟨"main"⟩ 4 "int m;\n" hline
    cases fate with
    | copied =>
      rw [Fate.Befalls, ← horigins] at hfate
      exact absurd hfate (by decide +kernel)
    | imported =>
      obtain ⟨_, ⟨importText, trailing, himport⟩, _⟩ := hfate
      have habsent : ImportReading.ofLine {} "int m;\n" = .absent := by decide +kernel
      rw [habsent] at himport
      cases himport
    | skipped => exact hfate
  · rw [Fate.Befalls, ← horigins]
    decide +kernel

end Call

end ShaderInline
