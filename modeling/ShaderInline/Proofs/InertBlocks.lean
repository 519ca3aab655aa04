import ShaderInline.Proofs.EmptiedBlocks

/-!
# Skipped blocks are inert

A run in which a block is skipped does the same when that block is emptied. The two runs are kept in
lock step. A block that was not skipped would tell the runs apart. That the block is skipped whenever
a task comes to it is what the induction carries along.
-/
namespace ShaderInline

variable {σ : Type}

/-- The tree whose first lines are passed over. -/
def ExpansionTree.skippedAll : List String → ExpansionTree → ExpansionTree
  | [], rest => rest
  | line :: lines, rest => .skipped line (skippedAll lines rest)

theorem ExpansionTree.output_skippedAll (lines : List String) (rest : ExpansionTree) (file : Path)
    (number : Nat) :
    (skippedAll lines rest).output file number = rest.output file (number + lines.length) := by
  induction lines generalizing number with
  | nil => rfl
  | cons line lines ih =>
    rw [skippedAll, output, ih, List.length_cons, Nat.add_right_comm, Nat.add_assoc]

/-- A walk through a whole block goes on behind it. -/
theorem Site.walk_block (site : Site σ) (child : Path → RunM σ ExpansionTree)
    (block rest : List String) (number : Nat) (run : Run σ) :
    site.walk child (block ++ rest) number block.length run =
      ((site.walk child rest (number + block.length) 0 run).1.map
          (ExpansionTree.skippedAll block),
        (site.walk child rest (number + block.length) 0 run).2) := by
  induction block generalizing number with
  | nil =>
    change site.walk child rest number 0 run = ((site.walk child rest number 0 run).1.map id,
      (site.walk child rest number 0 run).2)
    rcases site.walk child rest number 0 run with ⟨_ | _, _⟩ <;> rfl
  | cons line block ih =>
    rw [List.cons_append, List.length_cons, walk_inBlock, ih]
    have hnumber : number + 1 + block.length = number + (block.length + 1) := by omega
    rw [hnumber]
    cases (site.walk child rest (number + (block.length + 1)) 0 run).1 <;> rfl

/-- Whether a task comes to the given output, or fails with it, and to a run that matches. -/
def Task.Reproduces (emptied : Provider σ) (directives : Directives) (limit : Nat)
    (opened : OpenFiles) (other : Task) (run : Run σ) (output : Except Stop (List OutputLine))
    (after : Run σ) : Prop :=
  ∃ result' after', other.steps emptied directives limit opened run = (result', after') ∧
    result'.map (Task.output · other) = output ∧ after'.Matches after

namespace Task.Reproduces

variable {emptied : Provider σ} {directives : Directives} {limit : Nat} {opened : OpenFiles}
  {importer : Path} {line : String} {lines : List String} {n left skip : Nat}
  {run middle after : Run σ} {result : Except Stop ExpansionTree}
  {node node' : ExpansionTree → ExpansionTree}

/-- A line that puts the same around the output of the lines behind it. -/
theorem cons (around : List OutputLine → List OutputLine)
    (hrest : (Task.lines importer lines (n + 1) skip).Reproduces emptied directives limit opened
      middle (result.map (·.output importer (n + 1))) after)
    (hwalk :
      let rest := (Task.lines importer lines (n + 1) skip).steps emptied directives limit opened
        middle
      (Task.lines importer (line :: lines) n left).steps emptied directives limit opened run =
        (rest.1.map node', rest.2))
    (hnode : ∀ tree, (node tree).output importer n = around (tree.output importer (n + 1)))
    (hnode' : ∀ tree, (node' tree).output importer n = around (tree.output importer (n + 1))) :
    (Task.lines importer (line :: lines) n left).Reproduces emptied directives limit opened run
      ((result.map node).map (·.output importer n)) after := by
  obtain ⟨result', after', hsteps, houtput, hdone⟩ := hrest
  refine ⟨_, after', hwalk.trans (RunM.map_result hsteps _), ?_, hdone⟩
  have haround : ∀ {result : Except Stop ExpansionTree} {node : ExpansionTree → ExpansionTree},
      (∀ tree, (node tree).output importer n = around (tree.output importer (n + 1))) →
      (result.map node).map (·.output importer n) =
        (result.map (·.output importer (n + 1))).map around := by
    intro result node hnode
    cases result <;> simp [Except.map, hnode]
  exact (haround hnode').trans ((congrArg (Except.map around) houtput).trans (haround hnode).symm)

/-- A block whose lines are passed over. -/
theorem block {block rest : List String} {output : Except Stop (List OutputLine)}
    (h : (Task.lines importer rest (n + block.length) 0).Reproduces emptied directives limit opened
      run output after) :
    (Task.lines importer (block ++ rest) n block.length).Reproduces emptied directives limit opened
      run output after := by
  obtain ⟨result', after', hsteps, houtput, hdone⟩ := h
  refine ⟨_, after', (Site.walk_block _ _ block rest n run).trans (RunM.map_result hsteps _), ?_,
    hdone⟩
  rw [← houtput]
  cases result' <;> simp [Except.map, Task.output, ExpansionTree.output_skippedAll]

end Task.Reproduces

section LockStep

variable {provider emptied : Provider σ} {directives : Directives} {final : Run σ} {file : Path}
  {number : Nat} {name opening : String} {following : List String}
  (hemptied : emptied.EmptiesBlock provider file number)
  (hblock : final.Walks file number (opening :: following))
  (hopens : openedGuard? opening following = some name) (hnodup : final.identities.Nodup)

include hemptied hblock hnodup

/-- A file that cannot be read is not the one with the block. -/
theorem Run.Matches.unreadable {run other : Run σ} {path : Path} {depth : Nat} {cause : String}
    (h : other.Matches run) (hread : (provider.read path run.source).1 = .error cause)
    (hfinal : (run.asked provider path depth).events <+: final.events) :
    (emptied.read path other.source).1 = .error cause ∧
      (other.asked emptied path depth).Matches (run.asked provider path depth) := by
  have hother : ¬ path ≈ file := by
    intro hsame
    obtain ⟨content, _, ⟨otherDepth, hfound⟩, _⟩ := hblock
    have hasked := hfinal.subset (Run.read_mem_asked hread depth)
    cases Run.answer_unique hnodup hasked hfound hsame
  have hsame := hemptied.read path run.source hother
  refine ⟨?_, h.asked (by rw [hsame]) (by rw [hsame])⟩
  rw [h.source, hsame]
  exact hread

include hopens

/-- Where a file is read in one run, its counterpart is read in the other one, and walked in
step. -/
theorem Run.Matches.exists_read {run other : Run σ} {path : Path} {depth : Nat} {content : String}
    (h : other.Matches run) (hread : (provider.read path run.source).1 = .ok content)
    (hfinal : (run.asked provider path depth).events <+: final.events) :
    ∃ content', (emptied.read path other.source).1 = .ok content' ∧
      directives.guardsOnce (Text.lines content') = directives.guardsOnce (Text.lines content) ∧
      (other.asked emptied path depth).Matches (run.asked provider path depth) ∧
      (Task.lines path (Text.lines content) 1 0).Matches file number name opening following
        (.lines path (Text.lines content') 1 0) := by
  have hfound : final.HasRead path content :=
    ⟨depth, hfinal.subset (Run.read_mem_asked hread depth)⟩
  rw [h.source]
  by_cases hsame : path ≈ file
  · obtain rfl := Run.eq_of_mem_reads hnodup hfound.mem_reads hblock.mem_reads hsame
    obtain ⟨text, before, htext, hlines, hnumber⟩ := hblock
    obtain rfl := hfound.unique htext hnodup
    obtain ⟨content', hempties, hread'⟩ := hemptied.block run.source content hread
    obtain ⟨following', hlines', hopens', hbehind⟩ :=
      hempties.exists_following hlines hnumber hopens
    refine ⟨content', by rw [hread'], ?_, h.asked (by rw [hread']) (by rw [hread', hread]; rfl), ?_⟩
    · rw [hlines, hlines']
      exact directives.guardsOnce_append hopens
    · exact .before hlines hlines' hopens' hbehind (by omega) (Nat.zero_le _)
  · have hanswer := hemptied.read path run.source hsame
    refine ⟨content, by rw [hanswer, hread], rfl, h.asked (by rw [hanswer]) (by rw [hanswer]), ?_⟩
    exact .same fun hfile => absurd (hfile ▸ Setoid.refl path) hsame

/-- The second run does what the first one does. -/
theorem Expands.reproduces {limit : Nat} {opened : OpenFiles} {task other : Task} {run run' : Run σ}
    {after : Run σ} {result : Except Stop ExpansionTree}
    (h : Expands provider directives limit opened task run result after)
    (habsent : ImportReading.ofLine directives opening = .absent)
    (hfinal : after.events <+: final.events) (hskips : task.Skips run after name file number)
    (htask : task.Matches file number name opening following other) (hruns : run'.Matches run) :
    other.Reproduces emptied directives limit opened run' (result.map (Task.output · task))
      after := by
  induction h generalizing other run' with
  | tooDeep =>
    cases htask
    exact ⟨_, _, rfl, rfl, hruns⟩
  | circular henter =>
    cases htask
    exact ⟨_, _, expandFile_circular henter, rfl, hruns⟩
  | unreadable henter hread =>
    cases htask
    obtain ⟨hread', hasked⟩ := hruns.unreadable hemptied hblock hnodup hread hfinal
    exact ⟨_, _, expandFile_unreadable henter hread', rfl, hasked⟩
  | alreadyIncluded henter hread honce hknown =>
    cases htask
    have hasked : (Run.asked _ provider _ _).events <+: final.events :=
      (List.prefix_append _ _).trans (Run.events_noted _ _ ▸ hfinal)
    obtain ⟨content', hread', hsame, hruns', _⟩ :=
      hruns.exists_read hemptied hblock hopens hnodup hread hasked
    rw [← hruns.state] at hknown
    exact ⟨_, _, expandFile_alreadyIncluded henter hread' (hsame.trans honce) hknown, rfl,
      hruns'.noted _⟩
  | @entered path content _ entered _ _ _ run henter hread hnew hwalk ih =>
    cases htask
    have hasked : (run.asked provider path entered.size).events <+: final.events := by
      have hbegun := hwalk.events_prefix.trans hfinal
      rwa [Run.events_begun] at hbegun
    obtain ⟨content', hread', hsame, hruns', hlines⟩ :=
      hruns.exists_read hemptied hblock hopens hnodup hread hasked
    have hafter := hnodup.sublist (Run.identities_prefix hfinal).sublist
    rw [← hruns.state, ← hsame] at hnew
    obtain ⟨result', after', hsteps, hdone⟩ :=
      ih hfinal (hskips.entered hwalk hafter) hlines (hruns'.begun hsame path)
    exact ⟨result', after', (expandFile_entered henter hread' hnew).trans hsteps, hdone⟩
  | done =>
    obtain ⟨last, left, rfl⟩ := htask.done
    exact ⟨_, _, rfl, rfl, hruns⟩
  | @inBlock _ _ _ _ _ _ _ result _ _ _ _ ih =>
    rcases htask.inBlock with ⟨lines', rfl, hlines⟩ | ⟨hlines, rest, last, rfl⟩
    · exact (ih hfinal hskips.inBlock hlines hruns).cons id (Site.walk_inBlock _ _ _ _ _ _ _)
        (fun _ => rfl) (fun _ => rfl)
    · have hbehind := ih hfinal hskips.inBlock hlines hruns
      cases result <;> exact hbehind
  | malformed hwalks hline =>
    obtain ⟨lines', rfl, _⟩ := htask.next_of_import habsent (by simp [hline])
    exact ⟨_, _, Site.walk_malformed hline, rfl, hruns⟩
  | @unresolved line importText _ importer _ _ _ _ n _ hwalks hline hresolve =>
    obtain ⟨lines', rfl, _⟩ := htask.next_of_import habsent (by simp [hline])
    rw [← hemptied.resolve, ← hruns.source] at hresolve
    exact ⟨_, _, Site.walk_unresolved hline hresolve, rfl,
      hruns.consulted hemptied.resolve importer n importText _⟩
  | @alreadyImported _ importText _ importer path _ opened _ n _ _ _ hwalks hline hresolve hknown
      hrest ih =>
    obtain ⟨lines', rfl, hlines⟩ := htask.next_of_import habsent (by simp [hline])
    have himporter := List.mem_map_of_mem (f := Path.components) hwalks.mem_reads
    rw [← hemptied.resolve, ← hruns.source] at hresolve
    have hbehind := ih hfinal
      (hskips.tail himporter (by simp) fun hmem => .inl (Run.skippedGuard_mem_consulted.mp hmem))
      hlines (hruns.consulted hemptied.resolve importer n importText _)
    exact hbehind.cons (ExpansionTree.importedMarker importText ++ ·)
      (Site.walk_alreadyImported hline hresolve ((hruns.refers_iff opened path).mpr hknown))
      (fun _ => rfl) (fun _ => rfl)
  | @failedImport _ importText _ importer path _ opened stop _ _ n _ hwalks hline hresolve hfresh
      hchild ih =>
    obtain ⟨lines', rfl, _⟩ := htask.next_of_import habsent (by simp [hline])
    rw [← hemptied.resolve, ← hruns.source] at hresolve
    obtain ⟨result', after', hsteps, houtput, hdone⟩ := ih hfinal hskips.child (.file path)
      (hruns.consulted hemptied.resolve importer n importText _)
    obtain rfl : result' = .error stop := by
      cases result' with
      | error => exact congrArg Except.error (Except.error.inj houtput)
      | ok => cases houtput
    have hfresh' := (not_congr (hruns.refers_iff opened path)).mpr hfresh
    exact ⟨_, after', Site.walk_failedImport hline hresolve hfresh' hsteps, rfl, hdone⟩
  | @inlined _ importText _ importer path _ opened tree middle _ n _ _ _ hwalks hline hresolve
      hfresh hchild hrest ihchild ihrest =>
    obtain ⟨lines', rfl, hlines⟩ := htask.next_of_import habsent (by simp [hline])
    have himporter := List.mem_map_of_mem (f := Path.components) hwalks.mem_reads
    have hafter := hnodup.sublist (Run.identities_prefix hfinal).sublist
    have hmiddle := hafter.sublist (Run.identities_prefix hrest.events_prefix).sublist
    rw [← hemptied.resolve, ← hruns.source] at hresolve
    obtain ⟨result', middle', hsteps, houtput, hinlined⟩ := ihchild
      (hrest.events_prefix.trans hfinal) (hskips.inlined hrest himporter hafter) (.file path)
      (hruns.consulted hemptied.resolve importer n importText _)
    obtain ⟨tree', rfl, htree⟩ : ∃ tree', result' = .ok tree' ∧
        tree'.output path 1 = tree.output path 1 := by
      cases result' with
      | error => cases houtput
      | ok tree' => exact ⟨tree', rfl, Except.ok.inj houtput⟩
    have hflat : tree'.flatten path = tree.flatten path := congrArg FlatText.ofLines htree
    have hcompleted : (middle'.completed path (tree'.flatten path).text).Matches
        (middle.completed path (tree.flatten path).text) := by
      rw [hflat]
      exact hinlined.completed _ _
    have hbehind := ihrest hfinal (hskips.behind hchild himporter hmiddle) hlines hcompleted
    have hfresh' := (not_congr (hruns.refers_iff opened path)).mpr hfresh
    refine hbehind.cons (ExpansionTree.beginMarker importText importer ++
        OutputLine.closed (tree.output path 1) ++ ExpansionTree.endMarker importText ++ ·)
      (Site.walk_inlined hline hresolve hfresh' hsteps) (fun _ => rfl) fun _ => ?_
    rw [ExpansionTree.output, htree]
  | @plain line _ _ _ importer n _ _ _ hwalks hline hguard hrest ih =>
    have hother := htask.not_opening (by rintro ⟨rfl, rfl⟩; simp [hopens] at hguard)
    obtain ⟨lines', rfl, hsame, hlines, _⟩ := htask.next hother
    have himporter := List.mem_map_of_mem (f := Path.components) hwalks.mem_reads
    have hbehind := ih hfinal (hskips.tail himporter (List.Subset.refl _) .inl) hlines hruns
    exact hbehind.cons (⟨line, .source importer n⟩ :: ·)
      (Site.walk_plain hline (hsame.trans hguard)) (fun _ => rfl) (fun _ => rfl)
  | @opening line _ _ _ _ importer n run _ _ hwalks hline hguard hfresh hrest ih =>
    have himporter := List.mem_map_of_mem (f := Path.components) hwalks.mem_reads
    have hafter := hnodup.sublist (Run.identities_prefix hfinal).sublist
    obtain ⟨hother, hskips'⟩ := hskips.opening hrest himporter hafter
    obtain ⟨lines', rfl, hsame, hlines, _⟩ := htask.next hother
    have hbehind := ih hfinal hskips' hlines (hruns.defined _)
    rw [← hruns.state] at hfresh
    exact hbehind.cons (⟨line, .source importer n⟩ :: ·)
      (Site.walk_opening hline (hsame.trans hguard) hfresh) (fun _ => rfl) (fun _ => rfl)
  | @skippedBlock line lines opened' _ _ importer n run _ _ hwalks hline hguard hknown hrest ih =>
    have himporter := List.mem_map_of_mem (f := Path.components) hwalks.mem_reads
    have hafter := hnodup.sublist (Run.identities_prefix hfinal).sublist
    obtain ⟨hends, hskips'⟩ := hskips.block hrest himporter hafter
    rw [← hruns.state] at hknown
    by_cases hhere : importer = file ∧ n = number
    · obtain ⟨rfl, rfl⟩ := hhere
      obtain ⟨rfl, rfl, following', rfl, hopens', hbehind⟩ := htask.block
      obtain ⟨block, block', rest, hfollowing, rfl, hlength, hlength', hsame⟩ := hbehind
      obtain rfl : name = opened' := Option.some.inj (hopens.symm.trans hguard)
      -- The first run is about to pass over its block, and the second one has done so.
      have hlines : (Task.lines importer lines (n + 1) (blockLength 1 lines)).Matches importer n
          name line lines (.lines importer rest (n + 1 + block'.length) 0) :=
        .within hfollowing hlength.symm (hsame.imp_left fun hsame => by omega) (by omega)
      have hrest' := (ih hfinal hskips' hlines (hruns.noted _)).block
      rw [hlength'] at hrest'
      exact hrest'.cons id (Site.walk_skippedBlock hline hopens' hknown) (fun _ => rfl)
        (fun _ => rfl)
    · obtain ⟨lines', rfl, hsame, _, hblocks⟩ := htask.next hhere
      obtain ⟨hlength, hlines⟩ := hblocks fun hfile hle =>
        hends hfile (Nat.lt_of_le_of_ne hle fun hn => hhere ⟨hfile, hn⟩)
      have hrest' := ih hfinal hskips' hlines (hruns.noted _)
      rw [← hlength] at hrest'
      exact hrest'.cons id (Site.walk_skippedBlock hline (hsame.trans hguard) hknown)
        (fun _ => rfl) (fun _ => rfl)

end LockStep

/-- A block that is skipped is inert. If a call skips the block at some line of a file, then a call
to a provider that empties that block, and otherwise gives the same answers, reads the same files
and comes to the same text or failure, in the same state and with the same messages. Every provider
has such a one: `provider.emptyBlock file number`. -/
theorem call_of_emptiesBlock {provider emptied : Provider σ} {directives : Directives}
    {limit : Nat} {text : String} {opened : OpenFiles} {state : BatchState} {source : σ}
    {name : String} {file : Path} {number : Nat}
    (hemptied : emptied.EmptiesBlock provider file number)
    (h : .skippedGuard name file number ∈
      (provider.call directives limit text opened state source).run.events) :
    let call := provider.call directives limit text opened state source
    let other := emptied.call directives limit text opened state source
    other.result = call.result ∧ other.run.reads = call.run.reads ∧ other.state = call.state ∧
      other.run.messages = call.run.messages ∧ other.run.source = call.run.source := by
  intro call other
  have hexpands := expands_expandFile provider directives limit opened (Path.normal text)
    { source, state }
  have hnodup : call.run.identities.Nodup :=
    call_identities_nodup provider directives limit text opened state source
  have hfresh : .skippedGuard name file number ∉ ({ source, state } : Run σ).events := by
    simp [Run.events]
  obtain ⟨_, opening, following, hwalks, habsent, hopens, _⟩ :=
    (hexpands.isBlock_of_skippedGuard h).resolve_left hfresh
  obtain ⟨result, after, hsteps, houtput, hmatches⟩ :=
    hexpands.reproduces hemptied hwalks hopens hnodup habsent (List.prefix_refl _)
      (fun _ => ⟨hfresh, h⟩) (.file _) ⟨rfl, rfl, rfl⟩
  have hother : expandFile emptied directives limit opened (Path.normal text) { source, state } =
      (result, after) := hsteps
  have hrun : other.run = after := congrArg Prod.snd hother
  have hresult : other.result = result.map (·.flatten (Path.normal text)) :=
    congrArg (fun ended => ended.1.map (·.flatten (Path.normal text))) hother
  rw [← hrun] at hmatches
  refine ⟨?_, hmatches.reads_eq, hmatches.state, hmatches.messages_eq, hmatches.source⟩
  have hflat : ∀ result : Except Stop ExpansionTree, result.map (·.flatten (Path.normal text)) =
      (result.map (·.output (Path.normal text) 1)).map FlatText.ofLines := by
    rintro (_ | _) <;> rfl
  calc other.result
    _ = (result.map (·.output (Path.normal text) 1)).map FlatText.ofLines := hresult.trans (hflat _)
    _ = _ := congrArg (Except.map FlatText.ofLines) houtput
    _ = call.result := (hflat _).symm

/-- A library in which a guard that an imported file has opened is tested again, over a block of
lines that would not expand. -/
def testedAgain : Library :=
  .ofFiles [("main", "#import \"lib\"\n#ifndef A\n#define A\n#import\n#ifdef B\n#import \"m\"\n" ++
      "#endif\nint a;\n#endif\nint m;\n"),
    ("lib", "#ifndef A\n#define A\nint l;\n#endif\n")]

def testedAgainText : FlatText where
  text := "\n// BEGIN IMPORT: lib (from main)\n#ifndef A\n#define A\nint l;\n#endif\n" ++
    "// END IMPORT: lib\n\nint m;\n"
  origins := [.generated, .generated, .source ⟨"lib"⟩ 1, .source ⟨"lib"⟩ 2, .source ⟨"lib"⟩ 3,
    .source ⟨"lib"⟩ 4, .generated, .generated, .source ⟨"main"⟩ 10]

theorem call_of_emptiesBlock_testedAgain :
    let emptied := testedAgain.provider.emptyBlock ⟨"main"⟩ 2
    let call := testedAgain.provider.call {} 3 "main" {} {} ()
    let other := emptied.call {} 3 "main" {} {} ()
    emptied.EmptiesBlock testedAgain.provider ⟨"main"⟩ 2 ∧
    (emptied.read ⟨"main"⟩ ()).1 =
      .ok ("#import \"lib\"\n#ifndef A\n#define A\n\n\n\n\n\n#endif\n" ++ "int m;\n") ∧
    .skippedGuard "A" ⟨"main"⟩ 2 ∈ call.run.events ∧ other.result = call.result ∧
    other.result = .ok testedAgainText ∧ other.run.reads = call.run.reads ∧
    other.state = call.state := by
  intro emptied call other
  have hemptied := Provider.emptiesBlock_emptyBlock testedAgain.provider ⟨"main"⟩ 2
  have hskipped : .skippedGuard "A" ⟨"main"⟩ 2 ∈ call.run.events := by decide +kernel
  have hresult : call.result = .ok testedAgainText := by decide +kernel
  obtain ⟨hsame, hreads, hstate, _⟩ := call_of_emptiesBlock hemptied hskipped
  exact ⟨hemptied, by decide +kernel, hskipped, hsame, hsame.trans hresult, hreads, hstate⟩

end ShaderInline
