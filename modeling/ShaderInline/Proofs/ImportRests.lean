import ShaderInline.Proofs.ImportGrammar
import ShaderInline.Proofs.LineEndings
import ShaderInline.Proofs.Remarks

/-!
# Text after imports

Whatever follows the closing delimiter of an import line is remarked on and makes no other
difference. Where it is cut off in all files, the same files are read and the same text or failure
comes out, without any remark. Each import line that is reached is remarked on exactly if something
follows its import, in the order in which the lines are reached, and whether or not the import
fails.
-/
namespace ShaderInline

variable {σ : Type}

namespace Text

/-- The newline at the end of a line, if it has one. -/
def terminator (line : String) : List Char := if IsTerminated line then ['\n'] else []

theorem isBlank_of_mem_terminator {line : String} {c : Char} (h : c ∈ terminator line) :
    isBlank c := by
  unfold terminator at h
  split at h
  · obtain rfl := List.mem_singleton.mp h
    decide
  · cases h

/-- Lines may be replaced by others that are terminated where these are. -/
theorem AreLines.map {ls : List String} (h : AreLines ls) {f : String → String}
    (hline : ∀ line ∈ ls, IsLine (f line))
    (hend : ∀ line ∈ ls, IsTerminated line → IsTerminated (f line)) : AreLines (ls.map f) := by
  induction ls with
  | nil => trivial
  | cons line ls ih =>
    obtain ⟨_, hterminated, hrest⟩ := h
    rw [List.forall_mem_cons] at hline hend
    refine ⟨hline.1, fun hne => hend.1 (hterminated fun hnil => hne ?_), ih hrest hline.2 hend.2⟩
    rw [hnil]
    rfl

end Text

namespace ImportReading

variable {directives : Directives} {line importText : String} {trailing : Option String}

/-- What follows the closing delimiter in a line without the blanks around it, if it is an import
line. -/
def rest? (directives : Directives) (trimmed : List Char) : Option (List Char) :=
  ((directives.importKeyword.toList.isPrefixOf? trimmed).bind operand?).map Prod.snd

/-- An import line up to its closing delimiter, with its newline if it has one. Other lines stay as
they are. -/
def withoutRest (directives : Directives) (line : String) : String :=
  let trimmed := Text.trimChars line.toList
  match rest? directives trimmed with
  | none => line
  | some rest => String.ofList (line.toList.takeWhile Text.isBlank ++
      (trimmed.take (trimmed.length - rest.length) ++ Text.terminator line))

theorem rest?_eq_some_iff {trimmed rest : List Char} :
    rest? directives trimmed = some rest ↔ ∃ following path,
      trimmed = directives.importKeyword.toList ++ following ∧
        operand? following = some (path, rest) := by
  rw [rest?, Option.map_eq_some_iff]
  simp only [Option.bind_eq_some_iff, List.isPrefixOf?_eq_some_iff_append_eq, Prod.exists,
    exists_eq_right, eq_comm (a := trimmed)]
  tauto

/-- A line that is no import line stays as it is. -/
theorem withoutRest_of_ne_directive
    (h : ∀ importText trailing, ofLine directives line ≠ .directive importText trailing) :
    withoutRest directives line = line := by
  have hrest : rest? directives (Text.trimChars line.toList) = none := by
    rw [Option.eq_none_iff_forall_ne_some]
    intro rest hrest
    obtain ⟨following, path, htrimmed, hoperand⟩ := rest?_eq_some_iff.mp hrest
    exact h _ _ (ofLine_eq_directive_iff.mpr ⟨_, _, _, htrimmed, hoperand, rfl, rfl⟩)
  rw [withoutRest, hrest]

/-- An import line is cut at its closing delimiter. -/
theorem exists_of_directive (h : ofLine directives line = .directive importText trailing) :
    ∃ front last rest, line.toList = front ++ last :: rest ∧ ¬ Text.isBlank last ∧
      withoutRest directives line = String.ofList (front ++ last :: Text.terminator line) ∧
      ofLine directives (withoutRest directives line) = .directive importText none ∧
      trailing = trailing? rest := by
  obtain ⟨following, path, rest, htrimmed, hoperand, rfl, rfl⟩ := ofLine_eq_directive_iff.mp h
  obtain ⟨front, last, rfl, hlast, hother⟩ := exists_of_operand? hoperand
  obtain ⟨blanks, hline, hblanks⟩ := Text.exists_eq_append_trimChars line.toList
  have hleading : ∀ c ∈ line.toList.takeWhile Text.isBlank, Text.isBlank c :=
    List.all_eq_true.mp List.all_takeWhile
  set leading := line.toList.takeWhile Text.isBlank
  set kept := directives.importKeyword.toList ++ front ++ [last]
  have hkept : Text.trimChars line.toList = kept ++ rest := by
    rw [htrimmed]
    simp [kept]
  have hcut : withoutRest directives line =
      String.ofList (leading ++ (kept ++ Text.terminator line)) := by
    have hrest := rest?_eq_some_iff.mpr ⟨_, _, htrimmed, hoperand⟩
    rw [hkept] at hrest
    simp only [withoutRest, hkept, hrest, List.length_append, Nat.add_sub_cancel, List.take_left]
    rfl
  have htrim : Text.IsTrimmed kept := by
    refine ⟨fun c hc => ?_, by simp [kept, hlast]⟩
    have hhead := (Text.isTrimmed_trimChars line.toList).1 c
    rw [hkept, List.head?_append, Option.mem_def.mp hc] at hhead
    exact hhead rfl
  have htrimmed' : Text.trimChars (withoutRest directives line).toList = kept := by
    rw [hcut, String.toList_ofList]
    exact Text.trimChars_append hleading htrim fun _ => Text.isBlank_of_mem_terminator
  refine ⟨leading ++ (directives.importKeyword.toList ++ front), last, rest ++ blanks, ?_, hlast,
    ?_, ?_, ?_⟩
  · rw [hline, hkept]
    simp [kept]
  · rw [hcut]
    simp [kept]
  · refine ofLine_eq_directive_iff.mpr ⟨front ++ [last], path, [], ?_, hother [], rfl, rfl⟩
    rw [htrimmed']
    simp [kept]
  · rw [trailing?, trailing?, Text.trimChars_append_of_blank rest hblanks]

example : withoutRest {} "  #import <a> \"b\" \r\n" = "  #import <a>\n" := by decide

end ImportReading

section Default

variable {line line' importText : String} {trailing trailing' : Option String}

theorem ImportReading.toList_trim_of_directive
    (h : ofLine {} line = .directive importText trailing) :
    ∃ following, (Text.trim line).toList = "#import".toList ++ following := by
  obtain ⟨following, _, _, htrimmed, _⟩ := ofLine_eq_directive_iff.mp h
  exact ⟨following, by rw [Text.trim, String.toList_ofList, htrimmed]⟩

/-- An import line plays no part in any conditional, and carries no once guard. -/
theorem plain_of_directive (h : ImportReading.ofLine {} line = .directive importText trailing) :
    testedName? line = none ∧ (∀ name, Text.trim line ≠ "#define " ++ name) ∧
      (∀ depth, depthAfter line depth = depth) ∧ isSignificant (Text.trim line) ∧
      Text.trim line ≠ "#pragma once" := by
  obtain ⟨following, htrim⟩ := ImportReading.toList_trim_of_directive h
  have htrimmed : Text.trimChars line.toList = "#import".toList ++ following := by
    rw [← htrim, Text.trim, String.toList_ofList]
  refine ⟨?_, fun name heq => ?_, fun depth => ?_, ?_, fun heq => ?_⟩
  · rw [testedName?, htrimmed]
    rfl
  · rw [heq] at htrim
    simp at htrim
  · simp [depthAfter, beginsWith, htrim]
  · have hne : Text.trim line ≠ "" := by
      intro heq
      rw [heq] at htrim
      simp at htrim
    simp [isSignificant, beginsWith, List.isPrefixOf, htrim, hne]
  · rw [heq] at htrim
    simp at htrim

theorem ReadsAlike.of_directive
    (h : ImportReading.ofLine {} line = .directive importText trailing)
    (h' : ImportReading.ofLine {} line' = .directive importText trailing') :
    ReadsAlike {} line {} line' := by
  obtain ⟨htests, hdefines, hdepth, _, _⟩ := plain_of_directive h
  obtain ⟨htests', hdefines', hdepth', _, _⟩ := plain_of_directive h'
  refine ⟨fun text rest hline => ?_, ?_, ?_, ?_, ?_, ?_⟩
  · rw [h] at hline
    cases hline
    exact ⟨_, h'⟩
  · rw [h]
    nofun
  · rw [h]
    nofun
  · rw [htests', htests]
  · exact fun name => iff_of_false (hdefines' name) (hdefines name)
  · exact fun depth => (hdepth' depth).trans (hdepth depth).symm

open ImportReading

/-- A line stays as it is, or is an import line that is cut. -/
theorem withoutRest_cases (directives : Directives) (line : String) :
    withoutRest directives line = line ∨ ∃ importText trailing front last rest,
      ofLine directives line = .directive importText trailing ∧
      line.toList = front ++ last :: rest ∧ ¬ Text.isBlank last ∧
      withoutRest directives line = String.ofList (front ++ last :: Text.terminator line) ∧
      ofLine directives (withoutRest directives line) = .directive importText none := by
  by_cases h : ∃ importText trailing, ofLine directives line = .directive importText trailing
  · obtain ⟨importText, trailing, hline⟩ := h
    obtain ⟨front, last, rest, hchars, hlast, hcut, hreading, _⟩ := exists_of_directive hline
    exact .inr ⟨importText, trailing, front, last, rest, hline, hchars, hlast, hcut, hreading⟩
  · exact .inl (withoutRest_of_ne_directive (by simpa using h))

theorem readsAlike_withoutRest (line : String) :
    ReadsAlike {} line {} (withoutRest {} line) := by
  rcases withoutRest_cases {} line with hsame | ⟨_, _, _, _, _, hline, _, _, _, hcut⟩
  · rw [hsame]
    exact .of_trim rfl {}
  · exact .of_directive hline hcut

theorem isTerminated_withoutRest (directives : Directives) {line : String}
    (h : Text.IsTerminated line) : Text.IsTerminated (withoutRest directives line) := by
  rcases withoutRest_cases directives line with hsame | ⟨_, _, _, _, _, _, _, _, hcut, _⟩
  · rwa [hsame]
  · rw [hcut, Text.terminator, if_pos h]
    simp [Text.IsTerminated]

theorem isLine_withoutRest (directives : Directives) {line : String} (h : Text.IsLine line) :
    Text.IsLine (withoutRest directives line) := by
  rcases withoutRest_cases directives line with
    hsame | ⟨_, _, front, last, rest, _, hchars, hlast, hcut, _⟩
  · rwa [hsame]
  · have hfront : '\n' ∉ front := by
      intro hmem
      have hinside := h.2
      rw [hchars, List.dropLast_append_of_ne_nil (List.cons_ne_nil _ _)] at hinside
      exact hinside (List.mem_append_left _ hmem)
    have hnewline : '\n' ≠ last := by
      rintro rfl
      exact hlast (by decide)
    rw [hcut]
    refine ⟨by simp, ?_⟩
    unfold Text.terminator
    split <;> simp [List.dropLast_append_of_ne_nil, hfront, hnewline]

theorem guardsOnce_of_directive
    (h : ImportReading.ofLine {} line = .directive importText trailing) (lines : List String) :
    ({} : Directives).guardsOnce (line :: lines) = false := by
  obtain ⟨_, _, _, hsignificant, honce⟩ := plain_of_directive h
  simp [Directives.guardsOnce, hsignificant, honce]

/-- Cutting import lines does not change whether a file carries a once guard. -/
theorem guardsOnce_map_withoutRest (lines : List String) :
    ({} : Directives).guardsOnce (lines.map (withoutRest {})) =
      ({} : Directives).guardsOnce lines := by
  induction lines with
  | nil => rfl
  | cons line lines ih =>
    rw [List.map_cons]
    rcases withoutRest_cases {} line with hsame | ⟨_, _, _, _, _, hline, _, _, _, hcut⟩
    · rw [hsame]
      simp only [Directives.guardsOnce, List.map_cons, List.find?_cons] at ih ⊢
      split
      · rfl
      · exact ih
    · rw [guardsOnce_of_directive hline, guardsOnce_of_directive hcut]

end Default

/-- The text with all import lines cut at their closing delimiters. -/
def Text.withoutRests (content : String) : String :=
  String.join ((lines content).map (ImportReading.withoutRest {}))

theorem Text.lines_withoutRests (content : String) :
    lines (withoutRests content) = (lines content).map (ImportReading.withoutRest {}) := by
  have hlines := areLines_lines content
  exact lines_join (hlines.map (fun line hmem => isLine_withoutRest {} (hlines.isLine hmem))
    fun line _ => isTerminated_withoutRest {})

/-- The counterparts of lines whose imports are followed by text. -/
def Translation.withoutRests : Translation where
  line := ImportReading.withoutRest {}

/-- Whether the copied lines in a tree are of a certain kind. -/
def ExpansionTree.Copies (Line : String → Prop) : ExpansionTree → Prop
  | done | alreadyIncluded => True
  | copied line _ rest => Line line ∧ rest.Copies Line
  | skipped _ rest | alreadyImported _ _ rest => rest.Copies Line
  | inlined _ _ content rest => content.Copies Line ∧ rest.Copies Line

/-- No import line is copied. -/
theorem Yields.copies {provider : Provider σ} {directives : Directives} {opened : OpenFiles}
    {task : Task} {run after : Run σ} {tree : ExpansionTree}
    (h : Yields provider directives opened task run tree after) :
    tree.Copies fun line => ImportReading.ofLine directives line = .absent := by
  induction h with
  | alreadyIncluded | done => trivial
  | entered _ _ _ _ ih => exact ih
  | passed _ hline _ ih =>
    cases hline with
    | inBlock | alreadyImported | skippedBlock => exact ih
    | plain hreading | opening hreading => exact ⟨hreading, ih⟩
  | inlined _ _ _ _ _ _ ihchild ihrest => exact ⟨ihchild, ihrest⟩

/-- A text does not show what the import lines that made it were followed by. -/
theorem ExpansionTree.output_withoutRests {tree : ExpansionTree}
    (h : tree.Copies fun line => ImportReading.ofLine {} line = .absent) (file : Path)
    (number : Nat) :
    (Translation.withoutRests.tree tree).output file number = tree.output file number := by
  induction tree generalizing file number with
  | done | alreadyIncluded => rfl
  | copied line opened rest ih =>
    have hline : Translation.withoutRests.line line = line :=
      ImportReading.withoutRest_of_ne_directive fun _ _ => by rw [h.1]; nofun
    rw [Translation.tree, output, output, ih h.2, hline]
  | skipped line rest ih => exact ih h _ _
  | alreadyImported importText imported rest ih =>
    rw [Translation.tree, output, output, ih h]
  | inlined importText imported content rest ihcontent ihrest =>
    rw [Translation.tree, output, output, ihcontent h.1, ihrest h.2]
    rfl

theorem ExpansionTree.flatten_withoutRests {tree : ExpansionTree}
    (h : tree.Copies fun line => ImportReading.ofLine {} line = .absent) (file : Path) :
    (Translation.withoutRests.tree tree).flatten file = tree.flatten file :=
  congrArg FlatText.ofLines (output_withoutRests h file 1)

/-- Whether two runs have come equally far, the second one without any remark. -/
structure Run.IsMuted (run muted : Run Unit) : Prop where
  reads : muted.reads = run.reads
  onceGuards : muted.state.onceGuards = run.state.onceGuards
  namedGuards : muted.state.namedGuards = run.state.namedGuards
  inlined : muted.state.inlined = run.state.inlined
  remarks : muted.state.remarks = []

namespace Run.IsMuted

variable {run muted : Run Unit}

theorem isGuarded (h : run.IsMuted muted) (path : Path) :
    muted.state.isGuarded path = run.state.isGuarded path := by
  rw [BatchState.isGuarded, h.onceGuards, BatchState.isGuarded]

theorem asked (h : run.IsMuted muted) (provider provider' : Provider Unit) (path : Path)
    (depth depth' : Nat) :
    (run.asked provider path depth).IsMuted (muted.asked provider' path depth') :=
  { h with reads := by simp [h.reads] }

theorem noted (h : run.IsMuted muted) (event : Event) :
    (run.noted event).IsMuted (muted.noted event) :=
  { h with reads := by rw [reads_noted, reads_noted, h.reads] }

/-- An import line is remarked on in the first run at most. -/
theorem consulted (h : run.IsMuted muted) (provider provider' : Provider Unit) (file : Path)
    (line : Nat) (importText : String) (trailing : Option String) :
    (run.consulted provider file line importText trailing).IsMuted
      (muted.consulted provider' file line importText none) := by
  cases trailing with
  | none | some trailing => exact { h with reads := by simp [h.reads] }

theorem begun (h : run.IsMuted muted) {directives : Directives} {content content' : String}
    (honce : directives.guardsOnce (Text.lines content') =
      directives.guardsOnce (Text.lines content)) (path : Path) :
    (run.begun directives path content).IsMuted (muted.begun directives path content') := by
  unfold Run.begun
  rw [honce]
  split
  · exact { h with onceGuards := congrArg (·.insert path.components) h.onceGuards }
  · exact h

theorem defined (h : run.IsMuted muted) (name : String) :
    (run.defined name).IsMuted (muted.defined name) :=
  { h with namedGuards := congrArg (·.insert name) h.namedGuards }

theorem completed (h : run.IsMuted muted) (path : Path) (expanded : String) :
    (run.completed path expanded).IsMuted (muted.completed path expanded) :=
  { h with inlined := congrArg (·.add path expanded) h.inlined }

end Run.IsMuted

/-- The files with all import lines cut at their closing delimiters. -/
def filesWithoutRests (files : List (String × String)) : List (String × String) :=
  files.map (Prod.map id Text.withoutRests)

theorem simulates_withoutRests (files : List (String × String)) (final : Run Unit) :
    Translation.withoutRests.Simulates (Library.ofFiles files).provider {}
      (Library.ofFiles (filesWithoutRests files)).provider {} final (fun _ => True)
      Run.IsMuted where
  line := readsAlike_withoutRest
  same _ _ := Iff.rfl
  apart _ file hmem := by cases hmem
  unreadable := by
    intro run muted path cause depth hmuted _ _ hread
    refine ⟨?_, hmuted.asked _ _ _ _ _⟩
    have hmissing : (Library.ofFiles files).read path = .error cause := hread
    have hanswer := Library.read_ofFiles_mapContents Text.withoutRests files path
    rw [hmissing] at hanswer
    exact hanswer
  read := by
    intro run muted path content depth hmuted _ _ hread
    have hfound : (Library.ofFiles files).read path = .ok content := hread
    have hanswer := Library.read_ofFiles_mapContents Text.withoutRests files path
    rw [hfound] at hanswer
    have hlines := Text.lines_withoutRests content
    have honce : ({} : Directives).guardsOnce (Text.lines (Text.withoutRests content)) =
        ({} : Directives).guardsOnce (Text.lines content) := by
      rw [hlines, guardsOnce_map_withoutRest]
    refine ⟨Text.withoutRests content, hanswer, hlines, ?_, ?_, ?_⟩
    · rw [honce]
      exact and_congr_right fun _ => by rw [← hmuted.isGuarded path]; rfl
    · exact (hmuted.asked _ _ path _ _).noted _
    · exact (hmuted.asked _ _ path _ _).begun honce path
  unresolved := by
    intro run muted file number line importText trailing trailing' cause _ _ _ _ _ _ hresolve
    rw [Library.resolve_ofFiles] at hresolve
    cases hresolve
  resolved := by
    intro run muted file number line importText trailing trailing' path hmuted _ _ _ hline hline'
      hresolve
    obtain ⟨_, _, _, _, _, _, hcut, _⟩ := ImportReading.exists_of_directive hline
    cases hcut.symm.trans hline'
    refine ⟨?_, trivial, by rw [hmuted.inlined]; rfl, hmuted.consulted _ _ _ _ _ _⟩
    rw [Library.resolve_ofFiles] at hresolve ⊢
    exact hresolve
  completed tree hyields hmuted _ _ := by
    obtain ⟨_, _, hyields⟩ := hyields
    exact ExpansionTree.flatten_withoutRests hyields.copies _ ▸ hmuted.completed _ _
  names hmuted _ := by rw [hmuted.namedGuards]
  defined name hmuted := hmuted.defined name
  skippedGuard name file number hmuted := hmuted.noted _

open Classical in
/-- What follows the imports is remarked on and otherwise ignored. Without it the same files are read
and the same text or failure comes out, with the same guards met, the same files inlined and no
remark made. With it the import lines that are reached, each of them once, have one remark each if
more than blanks follow the import, in the order in which they are reached. A remark has the file and
the number of its line, and tells the path and what follows it. -/
theorem expand_filesWithoutRests (files : List (String × String)) (text : String) :
    let full := (Library.ofFiles files).expand {} text
    let bare := (Library.ofFiles (filesWithoutRests files)).expand {} text
    bare.result = full.result ∧ bare.run.reads = full.run.reads ∧
      bare.state.onceGuards = full.state.onceGuards ∧
      bare.state.namedGuards = full.state.namedGuards ∧
      bare.state.inlined = full.state.inlined ∧ bare.state.remarks = [] ∧
      full.run.importLines.Nodup ∧
      (∀ line ∈ full.run.importLines, ∃ parts, full.run.SpellsImport {} line.1 line.2 parts) ∧
      full.state.remarks.map (fun remark => (remark.file, remark.line)) =
        full.run.importLines.filter (fun line => full.run.HasRest {} line.1 line.2) ∧
      ∀ remark ∈ full.state.remarks,
        ∃ parts, full.run.SpellsImport {} remark.file remark.line parts ∧
          remark.message = "ignored text after import of " ++
            Text.quoted (String.ofList parts.path) ++ ": " ++
            String.ofList (Text.trimChars parts.rest) := by
  intro full bare
  have hlimit := Library.limit_of_mapEntries
    (Library.files_ofFiles_mapContents Text.withoutRests files)
  obtain ⟨hresult, hmuted⟩ := Library.expand_translate (simulates_withoutRests files full.run)
    hlimit rfl rfl trivial ⟨rfl, rfl, rfl, rfl, rfl⟩
  refine ⟨?_, hmuted.reads, hmuted.onceGuards, hmuted.namedGuards, hmuted.inlined, hmuted.remarks,
    call_remarks (Library.ofFiles files).provider {} (Library.ofFiles files).limit text ()⟩
  rcases hresult with ⟨tree, hfull, hbare, hyields⟩ | ⟨failure, hfull, hbare⟩
  · rw [hbare, hfull, ExpansionTree.flatten_withoutRests hyields.copies]
  · rw [hbare, hfull]
    exact congrArg Except.error (Translation.withoutRests.failure_of_id rfl rfl failure)

/-- Files in which two of three import lines are followed by text, the last of them in vain. -/
def followedImports : List (String × String) :=
  [("main", "int m;\n#import \"lib\" as l\n"), ("lib", "#import <part> \t\n\n  #import <gone>; \n"),
    ("part", "int p;\n")]

open Classical in
theorem expand_filesWithoutRests_followedImports :
    let full := (Library.ofFiles followedImports).expand {} "main"
    let bare := (Library.ofFiles (filesWithoutRests followedImports)).expand {} "main"
    full.result = .error (.imported "lib" ⟨"main"⟩ 2 (.imported "gone" ⟨"lib"⟩ 3
      (.unreadable ⟨"gone"⟩ "no such file: gone"))) ∧
    bare.result = full.result ∧ bare.state.remarks = [] ∧
    full.run.importLines = [(⟨"main"⟩, 2), (⟨"lib"⟩, 1), (⟨"lib"⟩, 3)] ∧
    full.state.remarks = [⟨⟨"main"⟩, 2, "ignored text after import of \"lib\": as l"⟩,
      ⟨⟨"lib"⟩, 3, "ignored text after import of \"gone\": ;"⟩] ∧
    full.run.importLines.filter (fun line => full.run.HasRest {} line.1 line.2) =
      [(⟨"main"⟩, 2), (⟨"lib"⟩, 3)] := by
  intro full bare
  obtain ⟨hresult, _, _, _, _, hbare, _, _, hplaces, _⟩ :=
    expand_filesWithoutRests followedImports "main"
  have hremarks : full.state.remarks =
      [⟨⟨"main"⟩, 2, "ignored text after import of \"lib\": as l"⟩,
        ⟨⟨"lib"⟩, 3, "ignored text after import of \"gone\": ;"⟩] := by decide +kernel
  refine ⟨by decide +kernel, hresult, hbare, by decide +kernel, hremarks, ?_⟩
  rw [← hplaces, hremarks]
  rfl

end ShaderInline
