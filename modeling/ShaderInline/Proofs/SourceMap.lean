import ShaderInline.Proofs.Calls
import ShaderInline.Proofs.Lines
import ShaderInline.Provider.Library

/-!
# The source map

Every line of a flattened text has one origin, and the origin is true. A line that was copied is the
line of the file that its origin names, and gains a terminator only where other output follows it.
A generated line is terminated, and holds a comment or nothing.

The output of a task is looked at with the knowledge whether anything is put after it. This is what
a line needs to know that may lack its terminator.
-/
namespace ShaderInline

variable {σ : Type}

/-- A generated line when no name in it has a newline. -/
def Text.IsMarker (line : String) : Prop := line = "\n" ∨ beginsWith "// " line

/-- None of the files that were asked for has a newline in its name. -/
def Run.HasPlainNames (run : Run σ) : Prop := ∀ path ∈ run.reads, '\n' ∉ path.fileName.toList

/-- Whether a line of output is what its origin says in the light of a run, when something may have
`followed` it. -/
def OutputLine.Faithful (line : OutputLine) (run : Run σ) (followed : Bool) : Prop :=
  match line.origin with
  | .source file number => ∃ original, run.HasLine file number original ∧
      line.text = if followed then Text.terminated original else original
  | .generated => Text.IsLine line.text ∧ Text.IsTerminated line.text ∧
      (run.HasPlainNames → Text.IsMarker line.text)

/-- Whether all lines of an output are faithful when something may have `followed` the last one. -/
inductive Mapped (run : Run σ) (followed : Bool) : List OutputLine → Prop where
  | nil : Mapped run followed []
  | cons {line : OutputLine} {lines : List OutputLine}
      (hline : line.Faithful run (followed || !lines.isEmpty))
      (hlines : Mapped run followed lines) : Mapped run followed (line :: lines)

section Output

variable {run : Run σ} {followed : Bool} {line : OutputLine} {lines front rest : List OutputLine}

theorem Run.HasLine.isLine {file : Path} {number : Nat} {line : String}
    (h : run.HasLine file number line) : Text.IsLine line := by
  obtain ⟨content, _, hline⟩ := h
  exact Text.isLine_of_line? hline

theorem OutputLine.Faithful.isLine (h : line.Faithful run followed) : Text.IsLine line.text := by
  unfold OutputLine.Faithful at h
  split at h
  case h_1 =>
    obtain ⟨original, hline, htext⟩ := h
    rw [htext]
    split
    · exact hline.isLine.terminated
    · exact hline.isLine
  case h_2 => exact h.1

theorem OutputLine.Faithful.isTerminated (h : line.Faithful run true) :
    Text.IsTerminated line.text := by
  unfold OutputLine.Faithful at h
  split at h
  case h_1 =>
    obtain ⟨original, _, htext⟩ := h
    rw [htext, if_pos rfl]
    exact Text.isTerminated_terminated original
  case h_2 => exact h.2.1

/-- Closing a line is what it takes for something to follow it. -/
theorem OutputLine.Faithful.terminated (h : line.Faithful run false) :
    OutputLine.Faithful ⟨Text.terminated line.text, line.origin⟩ run true := by
  unfold OutputLine.Faithful at h ⊢
  split at h
  case h_1 horigin =>
    obtain ⟨original, hline, htext⟩ := h
    rw [horigin]
    exact ⟨original, hline, by rw [htext]; rfl⟩
  case h_2 horigin =>
    rw [horigin, Text.terminated_of_isTerminated h.2.1]
    exact h

theorem OutputLine.faithful_copied {file : Path} {number : Nat} {original : String}
    (hline : run.HasLine file number original)
    (hterminated : followed = true → Text.IsTerminated original) :
    OutputLine.Faithful ⟨original, .source file number⟩ run followed := by
  refine ⟨original, hline, ?_⟩
  split
  case isTrue hfollowed => exact (Text.terminated_of_isTerminated (hterminated hfollowed)).symm
  case isFalse => rfl

theorem Mapped.append (hfront : Mapped run (followed || !rest.isEmpty) front)
    (hrest : Mapped run followed rest) : Mapped run followed (front ++ rest) := by
  induction hfront with
  | nil => exact hrest
  | @cons line front hline _ ih =>
    have hfollows : (followed || !(front ++ rest).isEmpty) =
        (followed || !rest.isEmpty || !front.isEmpty) := by
      cases followed <;> cases front <;> simp
    rw [← hfollows] at hline
    exact .cons hline ih

/-- The lines of an imported file are closed, and so the marker that ends it can follow. -/
theorem Mapped.closed (h : Mapped run false lines) : Mapped run true (OutputLine.closed lines) := by
  induction h with
  | nil => exact .nil
  | @cons line lines hline _ ih =>
    cases lines with
    | nil => exact .cons hline.terminated .nil
    | cons next lines => exact .cons hline ih

theorem Mapped.areLines (h : Mapped run false lines) : Text.AreLines (lines.map (·.text)) := by
  induction h with
  | nil => trivial
  | @cons line lines hline _ ih =>
    refine ⟨hline.isLine, fun hne => ?_, ih⟩
    have hfollows : (false || !lines.isEmpty) = true := by
      cases lines with
      | nil => exact absurd rfl hne
      | cons next lines => rfl
    rw [hfollows] at hline
    exact hline.isTerminated

theorem Mapped.faithful (h : Mapped run false lines) {index : Nat}
    (hline : lines[index]? = some line) :
    line.Faithful run (decide (index + 1 < lines.length)) := by
  induction h generalizing index with
  | nil => cases hline
  | @cons head lines hhead _ ih =>
    cases index with
    | zero =>
      cases hline
      cases lines with
      | nil => exact hhead
      | cons next lines => simpa using hhead
    | succ index =>
      have htail := ih hline
      simpa using htail

/-- A copied line stands for a line that was read. -/
theorem Mapped.hasLine (h : Mapped run followed lines) {file : Path} {number : Nat}
    (hmem : .source file number ∈ lines.map (·.origin)) : ∃ text, run.HasLine file number text := by
  induction h with
  | nil => cases hmem
  | @cons line lines hline _ ih =>
    rcases List.mem_cons.mp hmem with horigin | hmem
    · unfold OutputLine.Faithful at hline
      simp only [← horigin] at hline
      obtain ⟨original, hread, _⟩ := hline
      exact ⟨original, hread⟩
    · exact ih hmem

/-- What is closed can stand between two other outputs. -/
theorem Mapped.between {content ending : List OutputLine} (hfront : Mapped run true front)
    (hcontent : Mapped run false content) (hne : ending ≠ [])
    (hending : Mapped run (followed || !rest.isEmpty) ending) (hrest : Mapped run followed rest) :
    Mapped run followed (front ++ OutputLine.closed content ++ ending ++ rest) := by
  have hopen : Mapped run true (front ++ OutputLine.closed content) :=
    hfront.append hcontent.closed
  have hfollows : (followed || !rest.isEmpty || !ending.isEmpty) = true := by simp [hne]
  rw [← hfollows] at hopen
  exact (hopen.append hending).append hrest

/-- Generated text is faithful wherever it stands. -/
theorem mapped_generated {text : String}
    (hmarkers : run.HasPlainNames → ∀ line ∈ Text.lines (text ++ "\n"), Text.IsMarker line) :
    Mapped run followed (OutputLine.generated (text ++ "\n")) := by
  have hfaithful : ∀ line ∈ Text.lines (text ++ "\n"),
      ∀ followed, OutputLine.Faithful ⟨line, .generated⟩ run followed := by
    intro line hmem followed
    refine ⟨(Text.areLines_lines _).isLine hmem, Text.isTerminated_of_mem_lines hmem, ?_⟩
    intro hplain
    exact hmarkers hplain line hmem
  unfold OutputLine.generated
  generalize Text.lines (text ++ "\n") = lines at hfaithful ⊢
  induction lines with
  | nil => exact .nil
  | cons line lines ih =>
    refine .cons (hfaithful line List.mem_cons_self _) (ih ?_)
    intro other hmem
    exact hfaithful other (List.mem_cons_of_mem _ hmem)

end Output

section Markers

variable {run : Run σ} {followed : Bool} {file : Path} {importText : String}

theorem isMarker_comment {comment : String} (hbegins : beginsWith "// " comment) :
    Text.IsMarker (comment ++ "\n") := by
  right
  rw [beginsWith, List.isPrefixOf_iff_prefix] at hbegins ⊢
  rw [String.toList_append]
  exact hbegins.trans (List.prefix_append _ _)

theorem isMarker_of_mem_lines {comment line : String} (hplain : '\n' ∉ comment.toList)
    (hbegins : beginsWith "// " comment) (hmem : line ∈ Text.lines (comment ++ "\n")) :
    Text.IsMarker line := by
  rw [Text.lines_of_isLine (Text.isLine_append_newline hplain), List.mem_singleton] at hmem
  rw [hmem]
  exact isMarker_comment hbegins

theorem mapped_includedMarker (hfile : file ∈ run.reads) :
    Mapped run followed (ExpansionTree.includedMarker file) := by
  apply mapped_generated
  intro hplain line hmem
  refine isMarker_of_mem_lines ?_ (by simp [beginsWith]) hmem
  simp [hplain file hfile]

theorem mapped_importedMarker (himport : '\n' ∉ importText.toList) :
    Mapped run followed (ExpansionTree.importedMarker importText) := by
  apply mapped_generated
  intro _ line hmem
  refine isMarker_of_mem_lines ?_ (by simp [beginsWith]) hmem
  simp [himport]

theorem mapped_beginMarker (himport : '\n' ∉ importText.toList) (hfile : file ∈ run.reads) :
    Mapped run followed (ExpansionTree.beginMarker importText file) := by
  have hsplit : "\n// BEGIN IMPORT: " ++ importText ++ " (from " ++ file.fileName ++ ")\n" =
      "\n" ++ ("// BEGIN IMPORT: " ++ importText ++ " (from " ++ file.fileName ++ ")") ++ "\n" := by
    apply String.toList_inj.mp
    simp
  rw [ExpansionTree.beginMarker, hsplit]
  apply mapped_generated
  intro hplain line hmem
  rw [String.append_assoc, Text.lines_append_of_isTerminated Text.isLine_newline (by decide),
    List.mem_cons] at hmem
  rcases hmem with rfl | hmem
  · exact .inl rfl
  · refine isMarker_of_mem_lines ?_ (by simp [beginsWith]) hmem
    simp [himport, hplain file hfile]

theorem mapped_endMarker (himport : '\n' ∉ importText.toList) :
    Mapped run followed (ExpansionTree.endMarker importText) := by
  have hsplit : "// END IMPORT: " ++ importText ++ "\n\n" =
      "// END IMPORT: " ++ importText ++ "\n" ++ "\n" := by
    apply String.toList_inj.mp
    simp
  have hcomment : Text.IsLine ("// END IMPORT: " ++ importText ++ "\n") :=
    Text.isLine_append_newline (by simp [himport])
  rw [ExpansionTree.endMarker, hsplit]
  apply mapped_generated
  intro _ line hmem
  rw [Text.lines_append_of_isTerminated hcomment (Text.isTerminated_append_newline _),
    Text.lines_of_isLine Text.isLine_newline, List.mem_cons, List.mem_singleton] at hmem
  rcases hmem with rfl | rfl
  · exact isMarker_comment (by simp [beginsWith])
  · exact .inl rfl

theorem endMarker_ne_nil (importText : String) : ExpansionTree.endMarker importText ≠ [] := by
  intro hnil
  have hlines := List.map_eq_nil_iff.mp hnil
  have htext := Text.join_lines ("// END IMPORT: " ++ importText ++ "\n\n")
  rw [hlines] at htext
  have hchars := congrArg String.toList htext
  simp at hchars

end Markers

/-- The output that a task contributes. -/
def Task.output (tree : ExpansionTree) : Task → List OutputLine
  | .file path => tree.output path 1
  | .lines importer _ number _ => tree.output importer number

/-- Only the last line of a file can lack its terminator. -/
theorem Run.Walks.isTerminated {run : Run σ} {file : Path} {number : Nat}
    {line : String} {lines : List String} (h : run.Walks file number (line :: lines))
    (hne : lines ≠ []) : Text.IsTerminated line := by
  obtain ⟨content, before, _, hlines, _⟩ := h
  have hareLines := Text.areLines_lines content
  rw [hlines] at hareLines
  exact hareLines.isTerminated hne

/-- The path of an import line that was walked holds no newline. -/
theorem Run.Walks.newline_not_mem {run : Run σ} {file : Path} {number : Nat}
    {line importText : String} {lines : List String} {trailing : Option String}
    {directives : Directives} (h : run.Walks file number (line :: lines))
    (hline : ImportReading.ofLine directives line = .directive importText trailing) :
    '\n' ∉ importText.toList :=
  ImportReading.newline_not_mem h.hasLine.isLine hline

namespace Expands

variable {provider : Provider σ} {directives : Directives} {limit : Nat} {opened : OpenFiles}
  {task : Task} {run after final : Run σ} {result : Except Stop ExpansionTree}
  {tree : ExpansionTree}

theorem eq_done {file : Path} {number skip : Nat}
    (h : Expands provider directives limit opened (.lines file [] number skip) run result after) :
    result = .ok .done := by
  cases h
  rfl

theorem mapped_copied {file : Path} {number : Nat} {line : String} {lines : List String}
    (hat : run.Walks file number (line :: lines)) (hrun : run.events ⊆ final.events)
    {middle : Run σ} (hrest : Expands provider directives limit opened
      (.lines file lines (number + 1) 0) middle (.ok tree) after)
    (hmapped : Mapped final false (tree.output file (number + 1))) :
    Mapped final false (⟨line, .source file number⟩ :: tree.output file (number + 1)) := by
  refine .cons (OutputLine.faithful_copied (hat.hasLine.mono hrun) ?_) hmapped
  intro hfollowed
  apply hat.isTerminated
  rintro rfl
  cases hrest.eq_done
  cases hfollowed

/-- The output of a task is faithful to every history that goes on from it. -/
theorem mapped (h : Expands provider directives limit opened task run result after)
    (hresult : result = .ok tree) (hfinal : after.events ⊆ final.events) :
    Mapped final false (task.output tree) := by
  induction h generalizing tree with
  | tooDeep | circular | unreadable | malformed | unresolved | failedImport => cases hresult
  | alreadyIncluded henter hread _ _ =>
    cases hresult
    rename_i entered _ _
    have hasked := Run.read_mem_asked hread entered.size
    rw [Run.events_noted] at hfinal
    have hmem := hfinal (List.mem_append_left _ hasked)
    exact mapped_includedMarker (Run.HasRead.mem_reads ⟨_, hmem⟩)
  | entered henter hread hnew hwalk ih => exact ih hresult hfinal
  | done =>
    cases hresult
    exact .nil
  | inBlock hat hrest ih =>
    obtain ⟨rest, rfl, rfl⟩ := map_eq_ok_iff.mp hresult
    exact ih rfl hfinal
  | alreadyImported hat hline hresolve hknown hrest ih =>
    obtain ⟨rest, rfl, rfl⟩ := map_eq_ok_iff.mp hresult
    exact (mapped_importedMarker (hat.newline_not_mem hline)).append (ih rfl hfinal)
  | inlined hat hline hresolve hfresh hchild hrest ihchild ihrest =>
    obtain ⟨rest, rfl, rfl⟩ := map_eq_ok_iff.mp hresult
    have hmiddle := List.Subset.trans hrest.events_prefix.subset hfinal
    have himport := hat.newline_not_mem hline
    have hgrown := (Run.events_prefix_consulted _ _ _ _ _ _).trans hchild.events_prefix
    have hfile := (hat.mono (List.Subset.trans hgrown.subset hmiddle)).mem_reads
    rw [Task.output, ExpansionTree.output]
    apply Mapped.between
    · exact mapped_beginMarker himport hfile
    · exact ihchild rfl hmiddle
    · exact endMarker_ne_nil _
    · exact mapped_endMarker himport
    · exact ihrest rfl hfinal
  | plain hat hline hguard hrest ih =>
    obtain ⟨rest, rfl, rfl⟩ := map_eq_ok_iff.mp hresult
    have hrun := List.Subset.trans hrest.events_prefix.subset hfinal
    exact mapped_copied hat hrun hrest (ih rfl hfinal)
  | opening hat hline hguard hfresh hrest ih =>
    obtain ⟨rest, rfl, rfl⟩ := map_eq_ok_iff.mp hresult
    have hrun := List.Subset.trans hrest.events_prefix.subset hfinal
    exact mapped_copied hat hrun hrest (ih rfl hfinal)
  | skippedBlock hat hline hguard hknown hrest ih =>
    obtain ⟨rest, rfl, rfl⟩ := map_eq_ok_iff.mp hresult
    exact ih rfl hfinal

end Expands

/-- In a text whose output is faithful every line has an origin, and every origin is true. -/
theorem FlatText.ofLines_line? {run : Run σ} {lines : List OutputLine}
    (h : Mapped run false lines) {number : Nat} {origin : Origin}
    (horigin : (FlatText.ofLines lines).origin? number = some origin) :
    ∃ line, Text.line? (FlatText.ofLines lines).text number = some line ∧
      OutputLine.Faithful ⟨line, origin⟩ run
        (decide (number < (FlatText.ofLines lines).lineCount)) := by
  cases number with
  | zero => cases horigin
  | succ index =>
    have hcut : Text.lines (FlatText.ofLines lines).text = lines.map (·.text) :=
      Text.lines_join h.areLines
    have hindex : (lines.map (·.origin))[index]? = some origin := horigin
    rw [List.getElem?_map, Option.map_eq_some_iff] at hindex
    obtain ⟨line, hline, rfl⟩ := hindex
    refine ⟨line.text, ?_, ?_⟩
    · rw [Text.line?, hcut, List.getElem?_map, hline]
      rfl
    · have hfaithful := h.faithful hline
      simpa [FlatText.lineCount, FlatText.ofLines] using hfaithful

/-- The source map of a call is true. Every line of the text has one origin. A line with a source is
the line of that number in the content that was read from the file, to which a newline is added if
it is the last line of the file, lacks one and is not the last line of the text. A generated line is
terminated, and is empty or a comment unless there is a newline in the name of a file. -/
theorem call_source_map {provider : Provider σ} {directives : Directives} {limit : Nat}
    {text : String} {opened : OpenFiles} {state : BatchState} {source : σ} {flat : FlatText}
    (h : (provider.call directives limit text opened state source).result = .ok flat) :
    let run := (provider.call directives limit text opened state source).run
    run.AnsweredBy provider source ∧
    flat.origins.length = (Text.lines flat.text).length ∧
    (∀ number file original, flat.origin? number = some (.source file original) →
      ∃ content line, run.HasRead file content ∧ Text.line? content original = some line ∧
        Text.line? flat.text number = some
          (if original = (Text.lines content).length ∧ ¬ Text.IsTerminated line ∧
            number < flat.lineCount then line ++ "\n" else line)) ∧
    (∀ number, flat.origin? number = some .generated →
      ∃ line, Text.line? flat.text number = some line ∧ Text.IsTerminated line ∧
        ((∀ path ∈ run.reads, '\n' ∉ path.fileName.toList) →
          line = "\n" ∨ beginsWith "// " line)) := by
  intro run
  obtain ⟨result, hexpands, hresult⟩ :=
    call_expands provider directives limit text opened state source
  rw [hresult] at h
  obtain ⟨tree, rfl, rfl⟩ := map_eq_ok_iff.mp h
  have hmapped : Mapped run false (tree.output (Path.normal text) 1) :=
    hexpands.mapped rfl (List.Subset.refl _)
  refine ⟨call_answeredBy provider directives limit text opened state source, ?_, ?_, ?_⟩
  · have hcut : Text.lines (tree.flatten (Path.normal text)).text = _ :=
      Text.lines_join hmapped.areLines
    rw [hcut, List.length_map]
    exact List.length_map _
  · intro number file original horigin
    obtain ⟨line, hline, copied, ⟨content, hread, hcopied⟩, htext⟩ :=
      FlatText.ofLines_line? hmapped horigin
    refine ⟨content, copied, hread, hcopied, ?_⟩
    rw [ExpansionTree.flatten, hline]
    congr 1
    by_cases hterminated : Text.IsTerminated copied
    · rw [Text.terminated_of_isTerminated hterminated, ite_self] at htext
      simpa [hterminated] using htext
    · have hlast := Text.length_lines_of_line? hcopied hterminated
      have hadded : Text.terminated copied = copied ++ "\n" := if_neg hterminated
      rw [hadded] at htext
      simpa [hterminated, hlast] using htext
  · intro number horigin
    obtain ⟨line, hline, _, hterminated, hmarker⟩ := FlatText.ofLines_line? hmapped horigin
    exact ⟨line, hline, hterminated, hmarker⟩

/-- A library in which an imported file ends without a newline. -/
def openEnded : Library :=
  .ofFiles [("main", "#import \"lib/a\"\nint x;\n#import \"lib/a\""), ("lib/a", "\nint a;")]

def openEndedText : FlatText where
  text := "\n// BEGIN IMPORT: lib/a (from main)\n\nint a;\n// END IMPORT: lib/a\n\nint x;\n" ++
    "// Already imported: lib/a\n"
  origins := [.generated, .generated, .source ⟨"lib/a"⟩ 1, .source ⟨"lib/a"⟩ 2, .generated,
    .generated, .source ⟨"main"⟩ 2, .generated]

theorem call_source_map_openEnded :
    (openEnded.provider.call {} 3 "main" {} {} ()).result = .ok openEndedText ∧
    openEndedText.origins.length = (Text.lines openEndedText.text).length ∧
    (∃ content line,
      (openEnded.provider.call {} 3 "main" {} {} ()).run.HasRead ⟨"lib/a"⟩ content ∧
      Text.line? content 2 = some line ∧ Text.line? openEndedText.text 4 = some
        (if 2 = (Text.lines content).length ∧ ¬ Text.IsTerminated line ∧
          4 < openEndedText.lineCount then line ++ "\n" else line)) ∧
    Text.line? openEndedText.text 4 = some "int a;\n" ∧
    ∃ line, Text.line? openEndedText.text 8 = some line ∧ Text.IsTerminated line ∧
      (line = "\n" ∨ beginsWith "// " line) := by
  have hresult : (openEnded.provider.call {} 3 "main" {} {} ()).result = .ok openEndedText := by
    decide +kernel
  have hnames : ∀ path ∈ (openEnded.provider.call {} 3 "main" {} {} ()).run.reads,
      '\n' ∉ path.fileName.toList := by
    decide +kernel
  obtain ⟨_, hlength, hsource, hgenerated⟩ := call_source_map hresult
  obtain ⟨line, hline, hterminated, hmarker⟩ := hgenerated 8 (by decide +kernel)
  exact ⟨hresult, hlength, hsource 4 _ _ (by decide +kernel), by decide +kernel, line, hline,
    hterminated, hmarker hnames⟩

end ShaderInline
