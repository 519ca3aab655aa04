import ShaderInline.Proofs.Libraries
import ShaderInline.Proofs.Lines
import ShaderInline.Proofs.NormalForm

/-!
# Line endings

Lines may end in a carriage return and a newline instead of a newline alone. A line is read without
the blanks around it, so it is dealt with as before, and a text that was made of such lines reads as
the text of the other lines. The markers end in a newline alone, whatever the lines end in.
-/
namespace ShaderInline

namespace Text

def crLfChars (c : Char) : List Char := if c = '\n' then ['\r', '\n'] else [c]

/-- Whether a text holds no carriage return, so that its lines end in newlines alone. -/
def LfOnly (text : String) : Prop := '\r' ∉ text.toList

instance (text : String) : Decidable (LfOnly text) := inferInstanceAs (Decidable ¬ _)

/-- The text with a carriage return in front of every newline. -/
def toCrLf (text : String) : String := String.ofList (text.toList.flatMap crLfChars)

def fromCrLfChars : List Char → List Char
  | '\r' :: '\n' :: cs => '\n' :: fromCrLfChars cs
  | c :: cs => c :: fromCrLfChars cs
  | [] => []

/-- The text without the carriage returns that come right before a newline. -/
def fromCrLf (text : String) : String := String.ofList (fromCrLfChars text.toList)

/-- A line with a carriage return in its terminator, if it has one. -/
def crLfLineChars (cs : List Char) : List Char :=
  if cs.getLast? = some '\n' then cs.dropLast ++ ['\r', '\n'] else cs

def crLfLine (line : String) : String := String.ofList (crLfLineChars line.toList)

theorem crLfLineChars_concat (cs : List Char) :
    crLfLineChars (cs ++ ['\n']) = cs ++ ['\r', '\n'] := by
  simp [crLfLineChars]

theorem crLfLineChars_of_getLast? {cs : List Char} (h : cs.getLast? ≠ some '\n') :
    crLfLineChars cs = cs := if_neg h

theorem crLfLineChars_cons {c : Char} (hc : c ≠ '\n') (cs : List Char) :
    crLfLineChars (c :: cs) = c :: crLfLineChars cs := by
  by_cases h : cs.getLast? = some '\n'
  · obtain ⟨init, rfl⟩ := List.getLast?_eq_some_iff.mp h
    rw [crLfLineChars_concat, ← List.cons_append, crLfLineChars_concat, List.cons_append]
  · have hcons : (c :: cs).getLast? ≠ some '\n' := by
      cases cs with
      | nil => simpa using hc
      | cons next cs => simpa using h
    rw [crLfLineChars_of_getLast? h, crLfLineChars_of_getLast? hcons]

theorem lineChars_flatMap_crLfChars (cs : List Char) :
    lineChars (cs.flatMap crLfChars) = (lineChars cs).map crLfLineChars := by
  induction cs with
  | nil => rfl
  | cons c cs ih =>
    by_cases hc : c = '\n'
    · subst hc
      simp [crLfChars, lineChars, crLfLineChars, ih]
    · have hchars : (c :: cs).flatMap crLfChars = c :: cs.flatMap crLfChars := by
        simp [crLfChars, hc]
      rw [hchars, lineChars, if_neg hc, lineChars, if_neg hc, ih]
      cases lineChars cs with
      | nil => rw [List.map_nil, List.map_singleton, crLfLineChars_cons hc]; rfl
      | cons line lines => rw [List.map_cons, List.map_cons, crLfLineChars_cons hc]

/-- The lines of a text whose newlines have become longer. -/
theorem lines_toCrLf (text : String) : lines (toCrLf text) = (lines text).map crLfLine := by
  rw [lines, toCrLf, String.toList_ofList, lineChars_flatMap_crLfChars, lines, List.map_map,
    List.map_map]
  exact List.map_congr_left fun line _ => by simp [crLfLine]

/-- A carriage return in front of a newline is one more blank at the end of the line. -/
theorem trim_crLfLine (line : String) : trim (crLfLine line) = trim line := by
  rw [trim, crLfLine, String.toList_ofList, trim]
  by_cases h : line.toList.getLast? = some '\n'
  · obtain ⟨init, hinit⟩ := List.getLast?_eq_some_iff.mp h
    have hreturn : init ++ ['\r', '\n'] = init ++ ['\r'] ++ ['\n'] := by simp
    rw [hinit, crLfLineChars_concat, hreturn, trimChars_concat (by decide),
      trimChars_concat (by decide), trimChars_concat (by decide)]
  · rw [crLfLineChars_of_getLast? h]

theorem fromCrLfChars_append {cs : List Char} (h : '\r' ∉ cs) (rest : List Char) :
    fromCrLfChars (cs ++ rest) = cs ++ fromCrLfChars rest := by
  induction cs with
  | nil => rfl
  | cons c cs ih =>
    rw [List.mem_cons, not_or] at h
    rw [List.cons_append, fromCrLfChars, ih h.2]
    · rfl
    · rintro _ rfl
      exact absurd rfl h.1

theorem fromCrLfChars_crLfLineChars {cs : List Char} (h : '\r' ∉ cs) (rest : List Char) :
    fromCrLfChars (crLfLineChars cs ++ rest) = cs ++ fromCrLfChars rest := by
  by_cases hlast : cs.getLast? = some '\n'
  · obtain ⟨init, rfl⟩ := List.getLast?_eq_some_iff.mp hlast
    have hinit : '\r' ∉ init := fun hmem => h (List.mem_append_left _ hmem)
    rw [crLfLineChars_concat, List.append_assoc, fromCrLfChars_append hinit, List.append_assoc]
    rfl
  · rw [crLfLineChars_of_getLast? hlast, fromCrLfChars_append h]

theorem subset_of_mem_lines {text line : String} (h : line ∈ lines text) :
    line.toList ⊆ text.toList := by
  obtain ⟨cs, hcs, rfl⟩ := List.mem_map.mp h
  intro c hc
  rw [String.toList_ofList] at hc
  have hflat := List.mem_flatten.mpr ⟨cs, hcs, hc⟩
  rwa [flatten_lineChars] at hflat

theorem lfOnly_append {front back : String} :
    LfOnly (front ++ back) ↔ LfOnly front ∧ LfOnly back := by
  simp [LfOnly]

theorem LfOnly.terminated {line : String} (h : LfOnly line) : LfOnly (terminated line) := by
  unfold Text.terminated
  split
  · exact h
  · exact lfOnly_append.mpr ⟨h, by decide⟩

theorem terminated_crLfLine (line : String) :
    terminated (crLfLine line) = terminated line ∨
      terminated (crLfLine line) = crLfLine (terminated line) := by
  by_cases h : line.toList.getLast? = some '\n'
  · obtain ⟨init, hinit⟩ := List.getLast?_eq_some_iff.mp h
    have hreturn : (crLfLine line).toList.getLast? = some '\n' := by
      simp [crLfLine, hinit, crLfLineChars_concat]
    exact .inr (by rw [terminated, if_pos hreturn, terminated, if_pos h])
  · have hsame : crLfLine line = line := by
      rw [crLfLine, crLfLineChars_of_getLast? h, String.ofList_toList]
    exact .inl (by rw [hsame])

theorem fromCrLf_append {line : String} (h : LfOnly line) (rest : String) :
    fromCrLf (line ++ rest) = line ++ fromCrLf rest := by
  apply String.toList_injective
  simp [fromCrLf, fromCrLfChars_append h]

theorem fromCrLf_crLfLine_append {line : String} (h : LfOnly line) (rest : String) :
    fromCrLf (crLfLine line ++ rest) = line ++ fromCrLf rest := by
  apply String.toList_injective
  simp [fromCrLf, crLfLine, fromCrLfChars_crLfLineChars h]

end Text

theorem Text.LfOnly.importText {directives : Directives} {line importText : String}
    {trailing : Option String} (h : LfOnly line)
    (hreading : ImportReading.ofLine directives line = .directive importText trailing) :
    LfOnly importText :=
  fun hmem => h (trimChars_subset _ (ImportReading.importText_subset hreading hmem))

theorem Text.LfOnly.fileName {path : Path} (h : LfOnly path.text) : LfOnly path.fileName :=
  fun hmem => h (path.fileName_subset hmem)

theorem Path.lfOnly_normal {text : String} (h : Text.LfOnly text) :
    Text.LfOnly (normal text).text := by
  intro hmem
  rcases mem_text_normal hmem with hslash | hdot | hmem
  · exact absurd hslash (by decide)
  · exact absurd hdot (by decide)
  · exact h hmem

theorem Path.lfOnly_resolve {importText : String} {importer : Path}
    (htext : Text.LfOnly importText) (himporter : Text.LfOnly importer.text) :
    Text.LfOnly (importer.resolve importText).text := by
  intro hmem
  rcases mem_text_resolve hmem with hslash | hdot | hmem | hmem
  · exact absurd hslash (by decide)
  · exact absurd hdot (by decide)
  · exact himporter hmem
  · exact htext hmem

/-- The counterparts of lines that end in a newline alone. -/
def Translation.crLf : Translation where
  line := Text.crLfLine

/-- Whether a line of output has another one for its counterpart. The line is free of carriage
returns, and the other one may have one in its terminator. -/
structure OutputLine.Renders (line line' : OutputLine) : Prop where
  origin : line'.origin = line.origin
  free : Text.LfOnly line.text
  text : line'.text = line.text ∨ line'.text = Text.crLfLine line.text

section Output

variable {lines lines' : List OutputLine}

theorem OutputLine.renders_generated {text : String} (h : Text.LfOnly text) :
    List.Forall₂ Renders (generated text) (generated text) := by
  rw [List.forall₂_same]
  intro line hmem
  obtain ⟨cut, hcut, rfl⟩ := List.mem_map.mp hmem
  exact ⟨rfl, fun hc => h (Text.subset_of_mem_lines hcut hc), .inl rfl⟩

/-- A terminator that has to be added is a newline in both. -/
theorem OutputLine.Renders.terminated {line line' : OutputLine} (h : line.Renders line') :
    Renders ⟨Text.terminated line.text, line.origin⟩
      ⟨Text.terminated line'.text, line'.origin⟩ := by
  refine ⟨h.origin, h.free.terminated, ?_⟩
  rcases h.text with htext | htext
  · exact .inl (congrArg Text.terminated htext)
  · rw [htext]
    exact Text.terminated_crLfLine line.text

theorem OutputLine.renders_closed (h : List.Forall₂ Renders lines lines') :
    List.Forall₂ Renders (closed lines) (closed lines') := by
  induction h with
  | nil => exact .nil
  | cons hline hrest ih =>
    cases hrest with
    | nil => exact .cons hline.terminated .nil
    | cons hnext hrest => exact .cons hline ih

theorem OutputLine.fromCrLf_join (h : List.Forall₂ Renders lines lines') :
    Text.fromCrLf (String.join (lines'.map (·.text))) = String.join (lines.map (·.text)) := by
  induction h with
  | nil => rfl
  | cons hline _ ih =>
    rw [List.map_cons, List.map_cons, String.join_cons, String.join_cons, ← ih]
    rcases hline.text with htext | htext
    · rw [htext, Text.fromCrLf_append hline.free]
    · rw [htext, Text.fromCrLf_crLfLine_append hline.free]

theorem OutputLine.map_origin_of_renders (h : List.Forall₂ Renders lines lines') :
    lines'.map (·.origin) = lines.map (·.origin) := by
  induction h with
  | nil => rfl
  | cons hline _ ih => rw [List.map_cons, List.map_cons, hline.origin, ih]

/-- The counterpart of a tree is written like the tree, but for the terminators of its lines. -/
theorem ExpansionTree.renders_output {tree : ExpansionTree}
    (htree : tree.Holds Text.LfOnly Text.LfOnly fun file => Text.LfOnly file.text) {file : Path}
    (hfile : Text.LfOnly file.text) (number : Nat) :
    List.Forall₂ OutputLine.Renders (tree.output file number)
      ((Translation.crLf.tree tree).output file number) := by
  induction tree generalizing file number with
  | done => exact .nil
  | alreadyIncluded =>
    apply OutputLine.renders_generated
    simp only [Text.lfOnly_append]
    exact ⟨⟨by decide, hfile.fileName⟩, by decide⟩
  | copied line opened rest ih => exact .cons ⟨rfl, htree.1, .inr rfl⟩ (ih htree.2 hfile _)
  | skipped line rest ih => exact ih htree.2 hfile _
  | alreadyImported importText imported rest ih =>
    refine List.rel_append (OutputLine.renders_generated ?_) (ih htree.2.2 hfile _)
    simp only [Text.lfOnly_append]
    exact ⟨⟨by decide, htree.1⟩, by decide⟩
  | inlined importText imported content rest ihcontent ihrest =>
    obtain ⟨htext, himported, hcontent, hrest⟩ := htree
    have hinside := OutputLine.renders_closed (ihcontent hcontent himported 1)
    have hafter := ihrest hrest hfile (number + 1)
    refine List.rel_append (List.rel_append (List.rel_append
      (OutputLine.renders_generated ?_) hinside) (OutputLine.renders_generated ?_)) hafter
    · simp only [Text.lfOnly_append]
      exact ⟨⟨⟨⟨by decide, htext⟩, by decide⟩, hfile.fileName⟩, by decide⟩
    · simp only [Text.lfOnly_append]
      exact ⟨⟨by decide, htext⟩, by decide⟩

theorem ExpansionTree.fromCrLf_flatten {tree : ExpansionTree}
    (htree : tree.Holds Text.LfOnly Text.LfOnly fun file => Text.LfOnly file.text) {file : Path}
    (hfile : Text.LfOnly file.text) :
    let flat := (Translation.crLf.tree tree).flatten file
    (⟨Text.fromCrLf flat.text, flat.origins⟩ : FlatText) = tree.flatten file := by
  have houtput := renders_output htree hfile 1
  exact congrArg₂ FlatText.mk (OutputLine.fromCrLf_join houtput)
    (OutputLine.map_origin_of_renders houtput)

end Output

/-- Whether two runs have come equally far, with the same files met and the same remarks made. What
was read of the files may differ, and so may the digests of their texts. -/
structure Run.Agrees (run other : Run Unit) : Prop where
  reads : other.reads = run.reads
  onceGuards : other.state.onceGuards = run.state.onceGuards
  namedGuards : other.state.namedGuards = run.state.namedGuards
  inlined : other.state.inlined.files = run.state.inlined.files
  contains_inlined : ∀ path,
    other.state.inlined.contains path = run.state.inlined.contains path
  remarks : other.state.remarks = run.state.remarks

namespace Run.Agrees

variable {run other : Run Unit}

theorem isGuarded (h : run.Agrees other) (path : Path) :
    other.state.isGuarded path = run.state.isGuarded path := by
  rw [BatchState.isGuarded, h.onceGuards, BatchState.isGuarded]

theorem asked (h : run.Agrees other) (provider provider' : Provider Unit) (path : Path)
    (depth depth' : Nat) :
    (run.asked provider path depth).Agrees (other.asked provider' path depth') :=
  { h with reads := by simp [h.reads] }

theorem noted (h : run.Agrees other) (event : Event) :
    (run.noted event).Agrees (other.noted event) :=
  { h with reads := by rw [reads_noted, reads_noted, h.reads] }

theorem remarkedOn (h : run.Agrees other) (file : Path) (line : Nat) (importText : String)
    (trailing : Option String) :
    (run.remarkedOn file line importText trailing).Agrees
      (other.remarkedOn file line importText trailing) := by
  cases trailing with
  | none => exact h
  | some trailing =>
    have hnoted := h.noted (.remarked (.ignoredText file line importText trailing))
    exact { hnoted with remarks := congrArg (· ++ _) h.remarks }

theorem consulted (h : run.Agrees other) (provider provider' : Provider Unit) (file : Path)
    (line : Nat) (importText : String) (trailing : Option String) :
    (run.consulted provider file line importText trailing).Agrees
      (other.consulted provider' file line importText trailing) :=
  { h.remarkedOn file line importText trailing with reads := by simp [h.reads] }

theorem begun (h : run.Agrees other) {directives : Directives} {content content' : String}
    (honce : directives.guardsOnce (Text.lines content') =
      directives.guardsOnce (Text.lines content)) (path : Path) :
    (run.begun directives path content).Agrees (other.begun directives path content') := by
  unfold Run.begun
  rw [honce]
  split
  · exact { h with onceGuards := congrArg (·.insert path.components) h.onceGuards }
  · exact h

theorem defined (h : run.Agrees other) (name : String) :
    (run.defined name).Agrees (other.defined name) :=
  { h with namedGuards := congrArg (·.insert name) h.namedGuards }

theorem completed (h : run.Agrees other) (path : Path) (expanded expanded' : String) :
    (run.completed path expanded).Agrees (other.completed path expanded') :=
  { h with
    inlined := by
      simp only [Run.completed, InlinedFiles.files_add, h.contains_inlined, h.inlined]
    contains_inlined := fun other => by
      simp only [Run.completed, InlinedFiles.contains_add, h.contains_inlined] }

end Run.Agrees

section Library

variable {files : List (String × String)} {directives : Directives} {text : String}

theorem Directives.guardsOnce_toCrLf (directives : Directives) (content : String) :
    directives.guardsOnce (Text.lines (Text.toCrLf content)) =
      directives.guardsOnce (Text.lines content) := by
  have htrim : Text.trim ∘ Text.crLfLine = Text.trim := funext Text.trim_crLfLine
  rw [guardsOnce, Text.lines_toCrLf, List.map_map, htrim, guardsOnce]

/-- The files with a carriage return in front of every newline. -/
def filesToCrLf (files : List (String × String)) : List (String × String) :=
  files.map (Prod.map id Text.toCrLf)

theorem simulates_crLf (files : List (String × String)) (directives : Directives)
    (final : Run Unit) :
    Translation.crLf.Simulates (Library.ofFiles files).provider directives
      (Library.ofFiles (filesToCrLf files)).provider directives final (fun _ => True)
      Run.Agrees where
  line line := .of_trim (Text.trim_crLfLine line) directives
  same _ _ := Iff.rfl
  apart _ file hmem := by cases hmem
  unreadable := by
    intro run other path cause depth hagrees _ _ hread
    refine ⟨?_, hagrees.asked _ _ _ _ _⟩
    have hmissing : (Library.ofFiles files).read path = .error cause := hread
    have hanswer := Library.read_ofFiles_mapContents Text.toCrLf files path
    rw [hmissing] at hanswer
    exact hanswer
  read := by
    intro run other path content depth hagrees _ _ hread
    have hfound : (Library.ofFiles files).read path = .ok content := hread
    have hanswer := Library.read_ofFiles_mapContents Text.toCrLf files path
    rw [hfound] at hanswer
    have honce := directives.guardsOnce_toCrLf content
    refine ⟨Text.toCrLf content, hanswer, Text.lines_toCrLf content, ?_, ?_, ?_⟩
    · rw [honce]
      exact and_congr_right fun _ => by rw [← hagrees.isGuarded path]; rfl
    · exact (hagrees.asked _ _ path _ _).noted _
    · exact (hagrees.asked _ _ path _ _).begun honce path
  unresolved := by
    intro run other file number line importText trailing trailing' cause _ _ _ _ _ _ hresolve
    rw [Library.resolve_ofFiles] at hresolve
    cases hresolve
  resolved := by
    intro run other file number line importText trailing trailing' path hagrees _ _ _ hline hline'
      hresolve
    have hreading := ImportReading.ofLine_of_trim (Text.trim_crLfLine line) directives
    cases (hline.symm.trans hreading.symm).trans hline'
    refine ⟨?_, trivial, hagrees.contains_inlined path, hagrees.consulted _ _ _ _ _ _⟩
    rw [Library.resolve_ofFiles] at hresolve ⊢
    exact hresolve
  completed tree _ hagrees _ _ := hagrees.completed _ _ _
  names hagrees _ := by rw [hagrees.namedGuards]
  defined name hagrees := hagrees.defined name
  skippedGuard name file number hagrees := hagrees.noted _

/-- What an expansion of files without carriage returns meets has none either. -/
theorem lfOnly_of_hasLine (hfiles : ∀ file ∈ files, Text.LfOnly file.2) {file : Path}
    {number : Nat} {line : String}
    (h : ((Library.ofFiles files).expand directives text).run.HasLine file number line) :
    Text.LfOnly line := by
  obtain ⟨content, hread, hline⟩ := h
  obtain ⟨held, hmem, rfl⟩ := Library.exists_file_of_hasRead hread
  have hsubset := Text.subset_of_mem_lines (Text.mem_lines_of_line? hline)
  exact fun hreturn => hfiles held hmem (hsubset hreturn)

/-- Files without carriage returns come to the same with a carriage return in front of every
newline: the same failure, or a text of the same origins that reads the same once the carriage
returns are gone. The same files are read, the same guards met, the same files inlined and the same
remarks made. -/
theorem expand_filesToCrLf (hfiles : ∀ file ∈ files, Text.LfOnly file.2)
    (htext : Text.LfOnly text) :
    let lf := (Library.ofFiles files).expand directives text
    let crLf := (Library.ofFiles (filesToCrLf files)).expand directives text
    crLf.result.map (fun flat => ⟨Text.fromCrLf flat.text, flat.origins⟩) = lf.result ∧
      lf.run.Agrees crLf.run := by
  intro lf crLf
  have hlimit := Library.limit_of_mapEntries (Library.files_ofFiles_mapContents Text.toCrLf files)
  obtain ⟨hresult, hagrees⟩ := Library.expand_translate (simulates_crLf files directives lf.run)
    hlimit rfl rfl trivial ⟨rfl, rfl, rfl, rfl, fun _ => rfl, rfl⟩
  refine ⟨?_, hagrees⟩
  rcases hresult with ⟨tree, hlf, hcrLf, hyields⟩ | ⟨failure, hlf, hcrLf⟩
  · have htop := Path.lfOnly_normal htext
    have hreached : ∀ importText importer number path,
        .resolved importText importer number (.ok path) ∈ lf.run.events →
          Text.LfOnly importText → Text.LfOnly importer.text → Text.LfOnly path.text := by
      intro importText importer number path hevent hfree himporter
      rw [Library.eq_resolve_of_resolved hevent]
      exact Path.lfOnly_resolve hfree himporter
    have htree := hyields.holds List.prefix_rfl (fun _ _ _ => lfOnly_of_hasLine hfiles)
      (fun _ _ _ hline hreading => hline.importText hreading) hreached htop
    rw [hcrLf, hlf]
    exact congrArg Except.ok (ExpansionTree.fromCrLf_flatten htree htop)
  · rw [hcrLf, hlf]
    exact congrArg Except.error (Translation.crLf.failure_of_id rfl rfl failure)

/-- A library in which an import line has a rest, a guard is opened twice, and two files end in
lines without terminators. -/
def openEndedFiles : List (String × String) :=
  [("main", "#import \"lib/a\" rest\n#ifndef G\n#define G\nint m;\n#endif"),
    ("lib/a", "#pragma once\n#import \"../b\"\nint a;"), ("b", "#ifndef G\n#define G\n#endif\n")]

theorem expand_filesToCrLf_openEnded :
    let lf := (Library.ofFiles openEndedFiles).expand {} "main"
    let crLf := (Library.ofFiles (filesToCrLf openEndedFiles)).expand {} "main"
    lf.run.reads = [⟨"main"⟩, ⟨"lib/a"⟩, ⟨"b"⟩] ∧
    crLf.result.toOption.map (·.text) = some ("\n// BEGIN IMPORT: lib/a (from main)\n" ++
      "#pragma once\r\n\n// BEGIN IMPORT: ../b (from a)\n#ifndef G\r\n#define G\r\n#endif\r\n" ++
      "// END IMPORT: ../b\n\nint a;\n// END IMPORT: lib/a\n\n") ∧
    crLf.result.map (fun flat => ⟨Text.fromCrLf flat.text, flat.origins⟩) = lf.result ∧
    lf.run.Agrees crLf.run := by
  intro lf crLf
  have hfiles : ∀ file ∈ openEndedFiles, Text.LfOnly file.2 := by decide +kernel
  have htext : Text.LfOnly "main" := by decide +kernel
  have hsame : crLf.result.map (fun flat => ⟨Text.fromCrLf flat.text, flat.origins⟩) = lf.result ∧
      lf.run.Agrees crLf.run := expand_filesToCrLf hfiles htext
  obtain ⟨hresult, hagrees⟩ := hsame
  exact ⟨by decide +kernel, by decide +kernel, hresult, hagrees⟩

end Library

end ShaderInline
