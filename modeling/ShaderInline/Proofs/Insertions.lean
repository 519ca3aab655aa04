import ShaderInline.Proofs.SourceMap
import ShaderInline.Proofs.Success

/-!
# Insertions

What stands in an output for each import line: the expansion of the imported file between two
markers, or a marker that refers to an earlier one. An insertion is found by the number of output
lines in front of it. Two insertions are apart, or one of them lies within the text that the other
one brings in.
-/
namespace ShaderInline

variable {σ : Type}

structure Insertion where
  /-- The number of output lines in front of it. -/
  start : Nat
  importText : String
  importer : Path
  line : Nat
  file : Path
  /-- The expansion of the file, unless the file had been inlined before. -/
  content : Option ExpansionTree
  deriving DecidableEq, Repr

namespace Insertion

/-- The number of the output line at which the expanded file begins, and the lines of that file. -/
def innerStart (insertion : Insertion) : Nat :=
  insertion.start + (ExpansionTree.beginMarker insertion.importText insertion.importer).length

def inner (insertion : Insertion) : List OutputLine :=
  match insertion.content with
  | none => []
  | some tree => tree.output insertion.file 1

def lines (insertion : Insertion) : List OutputLine :=
  match insertion.content with
  | none => ExpansionTree.importedMarker insertion.importText
  | some tree => ExpansionTree.beginMarker insertion.importText insertion.importer ++
      OutputLine.closed (tree.output insertion.file 1) ++ ExpansionTree.endMarker insertion.importText

def stop (insertion : Insertion) : Nat := insertion.start + insertion.lines.length

/-- Whether an insertion lies within the text that another one brings in. -/
def Holds (outer inner : Insertion) : Prop :=
  outer.innerStart ≤ inner.start ∧ inner.stop ≤ outer.innerStart + outer.inner.length

/-- Whether an output line is a marker of the insertion. -/
def Marks (insertion : Insertion) (index : Nat) : Prop :=
  insertion.start ≤ index ∧ index < insertion.stop ∧
    (index < insertion.innerStart ∨ insertion.innerStart + insertion.inner.length ≤ index)

/-- The text of an insertion. A text that is brought in is closed before the marker that ends it. -/
def text (insertion : Insertion) : String :=
  match insertion.content with
  | none => "// Already imported: " ++ insertion.importText ++ "\n"
  | some tree =>
    let expanded := (tree.flatten insertion.file).text
    "\n// BEGIN IMPORT: " ++ insertion.importText ++ " (from " ++ insertion.importer.fileName ++
      ")\n" ++ expanded ++ (if expanded = "" ∨ Text.IsTerminated expanded then "" else "\n") ++
      ("// END IMPORT: " ++ insertion.importText ++ "\n\n")

/-- Whether an output has the insertion in its place. -/
def StandsIn (insertion : Insertion) (output : List OutputLine) : Prop :=
  ∃ front back, output = front ++ insertion.lines ++ back ∧ front.length = insertion.start

end Insertion

namespace ExpansionTree

/-- The insertions for the lines of `file` from a number on, each one behind those that it holds,
when a given number of output lines is in front of them. -/
def insertions : Path → Nat → Nat → ExpansionTree → List Insertion
  | _, _, _, done => []
  | _, _, _, alreadyIncluded => []
  | file, number, start, copied _ _ rest => insertions file (number + 1) (start + 1) rest
  | file, number, start, skipped _ rest => insertions file (number + 1) start rest
  | file, number, start, alreadyImported importText imported rest =>
    let own : Insertion := ⟨start, importText, file, number, imported, none⟩
    own :: insertions file (number + 1) own.stop rest
  | file, number, start, inlined importText imported content rest =>
    let own : Insertion := ⟨start, importText, file, number, imported, some content⟩
    insertions imported 1 own.innerStart content ++
      own :: insertions file (number + 1) own.stop rest

end ExpansionTree

@[simp] theorem OutputLine.length_closed (lines : List OutputLine) :
    (OutputLine.closed lines).length = lines.length := by
  induction lines with
  | nil => rfl
  | cons line lines ih =>
    cases lines with
    | nil => rfl
    | cons next lines => simpa [OutputLine.closed] using ih

/-- Lines that end with a terminator stay as they are when something is put behind them. -/
theorem OutputLine.closed_append {front : List OutputLine} (rest : List OutputLine)
    (h : ∀ line ∈ front.getLast?, Text.IsTerminated line.text) :
    closed (front ++ rest) = front ++ closed rest := by
  induction front with
  | nil => rfl
  | cons line front ih =>
    cases front with
    | nil =>
      cases rest with
      | nil =>
        have hline := h line rfl
        simp [closed, Text.terminated_of_isTerminated hline]
      | cons next rest => rfl
    | cons next front =>
      have hnext := ih h
      simp only [List.cons_append, closed] at hnext ⊢
      rw [hnext]

/-- A text that ends with a newline is cut into terminated lines. -/
theorem OutputLine.isTerminated_of_mem_generated {text : String} (h : Text.IsTerminated text)
    {line : OutputLine} (hmem : line ∈ OutputLine.generated text) : Text.IsTerminated line.text := by
  have hne : text.toList ≠ [] := by
    intro hnil
    rw [Text.IsTerminated, hnil] at h
    cases h
  have hlast := List.dropLast_append_getLast hne
  rw [Text.IsTerminated, List.getLast?_eq_some_getLast hne, Option.some.injEq] at h
  have htext : text = String.ofList text.toList.dropLast ++ "\n" := by
    apply String.toList_inj.mp
    rw [String.toList_append, String.toList_ofList]
    rw [h] at hlast
    exact hlast.symm
  obtain ⟨cut, hcut, rfl⟩ := List.mem_map.mp hmem
  rw [htext] at hcut
  exact Text.isTerminated_of_mem_lines hcut

theorem Text.isTerminated_append (front : String) {text : String} (h : Text.IsTerminated text) :
    Text.IsTerminated (front ++ text) := by
  rw [Text.IsTerminated] at h ⊢
  rw [String.toList_append, List.getLast?_append, h]
  rfl

/-- An output that ends with a generated text ends with a terminated line. -/
theorem OutputLine.isTerminated_getLast? {text : String} (h : Text.IsTerminated text)
    (front : List OutputLine) :
    ∀ line ∈ (front ++ OutputLine.generated text).getLast?, Text.IsTerminated line.text := by
  intro line hline
  have hne : OutputLine.generated text ≠ [] := by
    intro hnil
    have htext := Text.join_lines text
    rw [List.map_eq_nil_iff.mp hnil] at htext
    rw [← htext] at h
    cases h
  rw [List.getLast?_append_of_ne_nil _ hne] at hline
  exact isTerminated_of_mem_generated h (List.mem_of_mem_getLast? hline)

theorem ExpansionTree.isTerminated_getLast?_beginMarker (importText : String) (file : Path)
    (front : List OutputLine) :
    ∀ line ∈ (front ++ beginMarker importText file).getLast?, Text.IsTerminated line.text :=
  OutputLine.isTerminated_getLast? (Text.isTerminated_append _ (by decide)) front

namespace Insertion

/-- The last line of an insertion is generated, and so it is terminated. -/
theorem isTerminated_getLast? (insertion : Insertion) (front : List OutputLine) :
    ∀ line ∈ (front ++ insertion.lines).getLast?, Text.IsTerminated line.text := by
  unfold lines
  split
  · exact OutputLine.isTerminated_getLast? (Text.isTerminated_append _ (by decide)) front
  · rw [← List.append_assoc]
    exact OutputLine.isTerminated_getLast? (Text.isTerminated_append _ (by decide)) _

variable {insertion : Insertion} {front output back : List OutputLine}

/-- Closing what an insertion stands in leaves the insertion as it is. -/
theorem StandsIn.closed (h : insertion.StandsIn output) :
    insertion.StandsIn (OutputLine.closed output) := by
  obtain ⟨front, back, rfl, hlength⟩ := h
  refine ⟨front, OutputLine.closed back, ?_, hlength⟩
  exact OutputLine.closed_append back (insertion.isTerminated_getLast? front)

theorem StandsIn.append (h : insertion.StandsIn output) (back : List OutputLine) :
    insertion.StandsIn (output ++ back) := by
  obtain ⟨front, rest, rfl, hlength⟩ := h
  exact ⟨front, rest ++ back, by simp, hlength⟩

end Insertion

/-- Every insertion of a tree stands in its output, whatever is put in front of it. -/
theorem ExpansionTree.standsIn (tree : ExpansionTree) (file : Path) (number : Nat)
    (front : List OutputLine) :
    ∀ insertion ∈ tree.insertions file number front.length,
      insertion.StandsIn (front ++ tree.output file number) := by
  induction tree generalizing file number front with
  | done | alreadyIncluded => simp [insertions]
  | copied line opened rest ih =>
    intro insertion hmem
    have hrest := ih file (number + 1) (front ++ [⟨line, .source file number⟩]) insertion
      (by simpa [insertions] using hmem)
    simpa [output] using hrest
  | skipped line rest ih => exact ih file (number + 1) front
  | alreadyImported importText path rest ih =>
    intro insertion hmem
    rcases List.mem_cons.mp hmem with rfl | hmem
    · exact ⟨front, rest.output file (number + 1), by simp [Insertion.lines, output], rfl⟩
    · have hrest := ih file (number + 1) (front ++ importedMarker importText) insertion
        (by simpa [Insertion.stop, Insertion.lines] using hmem)
      simpa [output] using hrest
  | inlined importText path content rest ihcontent ih =>
    intro insertion hmem
    rcases List.mem_append.mp hmem with hmem | hmem
    · have hinner := ihcontent path 1 (front ++ beginMarker importText file) insertion
        (by simpa [Insertion.innerStart] using hmem)
      have hclosed := hinner.closed
      rw [OutputLine.closed_append _ (isTerminated_getLast?_beginMarker _ _ _)] at hclosed
      simpa [output] using
        hclosed.append (endMarker importText ++ rest.output file (number + 1))
    rcases List.mem_cons.mp hmem with rfl | hmem
    · exact ⟨front, rest.output file (number + 1), by simp [Insertion.lines, output], rfl⟩
    · have hrest := ih file (number + 1) (front ++ (beginMarker importText file ++
        OutputLine.closed (content.output path 1) ++ endMarker importText)) insertion
        (by simpa [Insertion.stop, Insertion.lines] using hmem)
      simpa [output] using hrest

namespace Insertion

variable (start : Nat) (importText : String) (importer : Path) (number : Nat) (file : Path)

theorem stop_reference : (⟨start, importText, importer, number, file, none⟩ : Insertion).stop =
    start + (ExpansionTree.importedMarker importText).length := rfl

theorem stop_expansion (tree : ExpansionTree) :
    (⟨start, importText, importer, number, file, some tree⟩ : Insertion).stop =
      (start + (ExpansionTree.beginMarker importText importer).length) +
        (tree.output file 1).length + (ExpansionTree.endMarker importText).length := by
  simp only [stop, lines, List.length_append, OutputLine.length_closed]
  omega

end Insertion

namespace ExpansionTree

/-- The insertions of a tree lie within its output. -/
theorem insertions_within (tree : ExpansionTree) (file : Path) (number start : Nat) :
    ∀ insertion ∈ tree.insertions file number start, start ≤ insertion.start ∧
      insertion.stop ≤ start + (tree.output file number).length := by
  induction tree generalizing file number start with
  | done | alreadyIncluded => simp [insertions]
  | copied line opened rest ih =>
    intro insertion hmem
    have hrest := ih file (number + 1) (start + 1) insertion hmem
    simp only [output, List.length_cons]
    omega
  | skipped line rest ih => exact ih file (number + 1) start
  | alreadyImported importText path rest ih =>
    intro insertion hmem
    have hstop := Insertion.stop_reference start importText file number path
    simp only [output, List.length_append]
    rcases List.mem_cons.mp hmem with rfl | hmem
    · exact ⟨Nat.le_refl _, by omega⟩
    · have hrest := ih file (number + 1) _ insertion hmem
      omega
  | inlined importText path content rest ihcontent ih =>
    intro insertion hmem
    have hstop := Insertion.stop_expansion start importText file number path content
    simp only [output, List.length_append, OutputLine.length_closed]
    rcases List.mem_append.mp hmem with hmem | hmem
    · have hinner := ihcontent path 1 _ insertion hmem
      simp only [Insertion.innerStart] at hinner
      omega
    rcases List.mem_cons.mp hmem with rfl | hmem
    · exact ⟨Nat.le_refl _, by omega⟩
    · have hrest := ih file (number + 1) _ insertion hmem
      omega

/-- Of two insertions the first ends before the other one begins, or lies within it. -/
theorem insertions_pairwise (tree : ExpansionTree) (file : Path) (number start : Nat) :
    (tree.insertions file number start).Pairwise fun first second =>
      first.stop ≤ second.start ∨ second.Holds first := by
  induction tree generalizing file number start with
  | done | alreadyIncluded => exact List.Pairwise.nil
  | copied line opened rest ih => exact ih file (number + 1) (start + 1)
  | skipped line rest ih => exact ih file (number + 1) start
  | alreadyImported importText path rest ih =>
    refine List.pairwise_cons.mpr ⟨fun insertion hmem => .inl ?_, ih file (number + 1) _⟩
    exact (rest.insertions_within file (number + 1) _ insertion hmem).1
  | inlined importText path content rest ihcontent ih =>
    have hstop := Insertion.stop_expansion start importText file number path content
    refine List.pairwise_append.mpr ⟨ihcontent path 1 _, List.pairwise_cons.mpr
      ⟨fun insertion hmem => .inl ?_, ih file (number + 1) _⟩, fun inner hinner other hother => ?_⟩
    · exact (rest.insertions_within file (number + 1) _ insertion hmem).1
    · have hheld := content.insertions_within path 1 _ inner hinner
      rcases List.mem_cons.mp hother with rfl | hother
      · exact .inr hheld
      · have hbehind := (rest.insertions_within file (number + 1) _ other hother).1
        simp only [Insertion.innerStart] at hheld
        exact .inl (by omega)

end ExpansionTree

def Task.insertions (start : Nat) (tree : ExpansionTree) : Task → List Insertion
  | .file path => tree.insertions path 1 start
  | .lines importer _ number _ => tree.insertions importer number start

/-- Whether an insertion was made for an import line that was looked up. -/
structure Insertion.Sound (run : Run σ) (directives : Directives) (insertion : Insertion) : Prop where
  resolved : Event.resolved insertion.importText insertion.importer insertion.line
    (.ok insertion.file) ∈ run.events
  importLine : ∃ line trailing, run.HasLine insertion.importer insertion.line line ∧
    ImportReading.ofLine directives line = .directive insertion.importText trailing
  areLines : Text.AreLines (insertion.inner.map (·.text))

theorem Insertion.Sound.mono {run after : Run σ} {directives : Directives} {insertion : Insertion}
    (h : insertion.Sound run directives) (hsub : run.events ⊆ after.events) :
    insertion.Sound after directives := by
  obtain ⟨line, trailing, hline, hreading⟩ := h.importLine
  exact ⟨hsub h.resolved, ⟨line, trailing, hline.mono hsub, hreading⟩, h.areLines⟩

/-- A line that brings in no file has an insertion only if it refers to an inlined file. -/
theorem Passes.insertions {provider : Provider σ} {directives : Directives} {opened : OpenFiles}
    {file : Path} {number skip left : Nat} {line : String} {lines : List String}
    {run after : Run σ} {node : ExpansionTree → ExpansionTree}
    (h : Passes provider directives opened file number line lines skip run node left after)
    (hat : run.Walks file number (line :: lines)) (start : Nat) :
    ∃ own added, (∀ rest : ExpansionTree,
        (node rest).insertions file number start =
          own ++ rest.insertions file (number + 1) (start + added) ∧
        ((node rest).output file number).length =
          added + (rest.output file (number + 1)).length) ∧
      ∀ insertion ∈ own, insertion.start = start ∧ insertion.content = none ∧
        insertion.Sound after directives ∧ run.state.inlined.contains insertion.file := by
  cases h with
  | inBlock | skippedBlock =>
    refine ⟨[], 0, fun rest => ⟨rfl, ?_⟩, by simp⟩
    simp [ExpansionTree.output]
  | plain | opening =>
    refine ⟨[], 1, fun rest => ⟨rfl, ?_⟩, by simp⟩
    simp [ExpansionTree.output, Nat.add_comm]
  | @alreadyImported importText trailing path run hline hresolve hknown =>
    refine ⟨[⟨start, importText, file, number, path, none⟩], _, fun rest => ⟨rfl, ?_⟩, ?_⟩
    · simp [ExpansionTree.output, Insertion.lines]
    · intro insertion hmem
      rw [List.mem_singleton.mp hmem]
      have hgrown := run.events_prefix_consulted provider file number importText trailing
      refine ⟨rfl, rfl, ⟨Run.resolved_mem_consulted hresolve _ _, ?_, trivial⟩, hknown.2⟩
      exact ⟨line, trailing, hat.hasLine.mono hgrown.subset, hline⟩

namespace Yields

variable {provider : Provider σ} {directives : Directives} {opened : OpenFiles} {task : Task}
  {run after : Run σ} {tree : ExpansionTree}

theorem areLines (h : Yields provider directives opened task run tree after) :
    Text.AreLines ((task.output tree).map (·.text)) := by
  obtain ⟨limit, hexpands⟩ := h.exists_expands
  have hmapped : Mapped after false (task.output tree) :=
    hexpands.mapped rfl (List.Subset.refl _)
  exact hmapped.areLines

/-- Every insertion was made for an import line that was looked up. -/
theorem sound (h : Yields provider directives opened task run tree after) (start : Nat) :
    ∀ insertion ∈ task.insertions start tree, insertion.Sound after directives := by
  induction h generalizing start with
  | alreadyIncluded | done => simp [Task.insertions, ExpansionTree.insertions]
  | entered _ _ _ _ ih => exact ih start
  | passed hat hline hrest ih =>
    obtain ⟨own, added, hparts, hown⟩ := hline.insertions hat start
    intro insertion hmem
    rw [Task.insertions, (hparts _).1, List.mem_append] at hmem
    rcases hmem with hmem | hmem
    · exact (hown insertion hmem).2.2.1.mono hrest.events_prefix.subset
    · exact ih _ insertion hmem
  | @inlined _ file number line lines importText trailing path run content middle rest after
      hat hline hresolve hfresh hchild hrest ihchild ihrest =>
    have hmiddle : middle.events <+: after.events := hrest.events_prefix
    have hconsulted := run.events_prefix_consulted provider file number importText trailing
    have hlater := (hchild.events_prefix.trans hmiddle).subset
    intro insertion hmem
    rcases List.mem_append.mp hmem with hmem | hmem
    · exact (ihchild _ insertion hmem).mono hmiddle.subset
    rcases List.mem_cons.mp hmem with rfl | hmem
    · refine ⟨hlater (Run.resolved_mem_consulted hresolve _ _), ?_, hchild.areLines⟩
      exact ⟨line, trailing, hat.hasLine.mono (List.Subset.trans hconsulted.subset hlater), hline⟩
    · exact ihrest _ insertion hmem

end Yields

section Text

theorem Text.AreLines.of_append {front rest : List String} (h : Text.AreLines (front ++ rest)) :
    Text.AreLines front ∧ Text.AreLines rest := by
  induction front with
  | nil => exact ⟨trivial, h⟩
  | cons line front ih =>
    obtain ⟨hline, hterminated, hlines⟩ := h
    obtain ⟨hfront, hrest⟩ := ih hlines
    refine ⟨⟨hline, fun hne => hterminated ?_, hfront⟩, hrest⟩
    simp [hne]

theorem Text.isTerminated_append_iff (front : String) {text : String} (h : text ≠ "") :
    Text.IsTerminated (front ++ text) ↔ Text.IsTerminated text := by
  have hne : text.toList ≠ [] := fun hnil => h (String.toList_inj.mp hnil)
  rw [Text.IsTerminated, Text.IsTerminated, String.toList_append,
    List.getLast?_append_of_ne_nil _ hne]

theorem Text.IsLine.ne_empty {line : String} (h : Text.IsLine line) : line ≠ "" := by
  rintro rfl
  exact h.1 rfl

/-- Closing lines puts a terminator behind their text if it needs one. -/
theorem OutputLine.join_closed {lines : List OutputLine}
    (h : Text.AreLines (lines.map (·.text))) :
    String.join ((OutputLine.closed lines).map (·.text)) =
      let text := String.join (lines.map (·.text))
      text ++ if text = "" ∨ Text.IsTerminated text then "" else "\n" := by
  induction lines with
  | nil => rfl
  | cons line lines ih =>
    obtain ⟨hline, _, hlines⟩ := h
    cases lines with
    | nil =>
      have hsingle : ∀ text, String.join [text] = text := fun text => by
        rw [String.join_cons]
        exact String.append_empty
      rw [closed, List.map_singleton, List.map_singleton, hsingle, hsingle, Text.terminated]
      simp only [hline.ne_empty, false_or, Text.IsTerminated]
      split <;> simp
    | cons next lines =>
      have hnext := hlines.1.ne_empty
      have hne : String.join ((next :: lines).map (·.text)) ≠ "" := by
        rw [List.map_cons, String.join_cons, ne_eq, String.append_eq_empty_iff]
        exact fun hempty => hnext hempty.1
      have hfront : line.text ++ String.join ((next :: lines).map (·.text)) ≠ "" := by
        rw [ne_eq, String.append_eq_empty_iff]
        exact fun hempty => hne hempty.2
      have hrest := ih hlines
      have hclosed : (closed (line :: next :: lines)).map (·.text) =
          line.text :: (closed (next :: lines)).map (·.text) := rfl
      have hlines : (line :: next :: lines).map (·.text) =
          line.text :: (next :: lines).map (·.text) := rfl
      rw [hclosed, hlines, String.join_cons, String.join_cons, hrest]
      simp only [hne, hfront, false_or, Text.isTerminated_append_iff _ hne, String.append_assoc]

theorem OutputLine.join_generated (text : String) :
    String.join ((OutputLine.generated text).map (·.text)) = text := by
  simp [OutputLine.generated, Function.comp_def, Text.join_lines]

namespace Insertion

variable {insertion : Insertion} {output : List OutputLine}

theorem join_lines (h : Text.AreLines (insertion.inner.map (·.text))) :
    String.join (insertion.lines.map (·.text)) = insertion.text := by
  unfold inner at h
  unfold lines text
  cases hcontent : insertion.content with
  | none => exact OutputLine.join_generated _
  | some tree =>
    simp only [hcontent] at h
    rw [List.map_append, List.map_append, String.join_append, String.join_append,
      OutputLine.join_closed h, ExpansionTree.beginMarker, ExpansionTree.endMarker,
      OutputLine.join_generated, OutputLine.join_generated]
    simp only [String.append_assoc]
    rfl

/-- The lines of an insertion stand as lines in the text of the output. -/
theorem StandsIn.lines_text (h : insertion.StandsIn output)
    (hinner : Text.AreLines (insertion.inner.map (·.text)))
    (houtput : Text.AreLines (output.map (·.text))) :
    ∃ front back, Text.lines (String.join (output.map (·.text))) =
        front ++ Text.lines insertion.text ++ back ∧ front.length = insertion.start ∧
      insertion.stop = insertion.start + (Text.lines insertion.text).length := by
  obtain ⟨front, back, rfl, hlength⟩ := h
  have hcut := Text.lines_join houtput
  rw [List.map_append, List.map_append] at houtput
  have hown := Text.lines_join houtput.of_append.1.of_append.2
  rw [join_lines hinner] at hown
  refine ⟨front.map (·.text), back.map (·.text), ?_, by simpa using hlength, ?_⟩
  · rw [hcut, hown, List.map_append, List.map_append]
  · rw [hown, List.length_map]
    rfl

end Insertion

end Text

end ShaderInline
