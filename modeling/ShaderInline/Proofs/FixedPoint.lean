import ShaderInline.Proofs.GuardOpenings
import ShaderInline.Proofs.LineEndings
import ShaderInline.Proofs.Repetition
import ShaderInline.Proofs.SourceMap

/-!
# Texts without imports

No line of a flattened text is an import line: the copied lines are none, and a marker is empty or a
comment. A file without import lines comes to itself, unless it opens a guard twice. So what is
flattened stays as it is when it is expanded again.
-/
namespace ShaderInline

variable {σ : Type}

theorem Text.exists_trimChars_cons (c : Char) (h : ¬ isBlank c) (cs : List Char) :
    ∃ rest, trimChars (c :: cs) = c :: rest := by
  have hlast : [c].dropWhile isBlank = [c] := List.dropWhile_cons_of_neg h
  rw [trimChars, List.dropWhile_cons_of_neg h, List.reverse_cons, List.dropWhile_append]
  split
  · exact ⟨[], by rw [hlast]; rfl⟩
  · exact ⟨_, by rw [List.reverse_append]; rfl⟩

theorem Text.trim_terminated (line : String) : trim (terminated line) = trim line := by
  unfold terminated
  split
  · rfl
  · rw [trim, String.toList_append]
    exact congrArg String.ofList (trimChars_concat (by decide) _)

/-- Neither an empty line nor a comment is an import line. -/
theorem Text.IsMarker.absent {line : String} (h : IsMarker line) :
    ImportReading.ofLine {} line = .absent := by
  rcases h with rfl | hcomment
  · decide
  · rw [beginsWith, List.isPrefixOf_iff_prefix] at hcomment
    obtain ⟨rest, hline⟩ := hcomment
    obtain ⟨trimmed, htrimmed⟩ :=
      exists_trimChars_cons '/' (by decide) ('/' :: ' ' :: rest)
    have hchars : line.toList = '/' :: '/' :: ' ' :: rest := hline.symm
    have hkeyword : ({} : Directives).importKeyword.toList.isPrefixOf? ('/' :: trimmed) = none := by
      simp [List.isPrefixOf?]
    rw [ImportReading.ofLine, hchars, htrimmed, hkeyword]

section Flattened

variable {provider : Provider σ} {directives : Directives} {opened : OpenFiles} {task : Task}
  {run after : Run σ} {tree : ExpansionTree}

/-- Whether a line of output is a marker or no import line. -/
def OutputLine.IsInert (directives : Directives) (line : OutputLine) : Prop :=
  line.origin = .generated ∨ ImportReading.ofLine directives line.text = .absent

theorem OutputLine.isInert_of_mem_closed {lines : List OutputLine}
    (h : ∀ line ∈ lines, line.IsInert directives) {line : OutputLine} (hmem : line ∈ closed lines) :
    line.IsInert directives := by
  induction lines with
  | nil => cases hmem
  | cons first lines ih =>
    have hfirst := h first List.mem_cons_self
    cases lines with
    | nil =>
      obtain rfl := List.mem_singleton.mp hmem
      exact hfirst.imp_right (ImportReading.ofLine_of_trim (Text.trim_terminated _) _).trans
    | cons next lines =>
      rcases List.mem_cons.mp hmem with rfl | hmem
      · exact hfirst
      · exact ih (fun other hother => h other (List.mem_cons_of_mem _ hother)) hmem

/-- Only lines that are no import lines are copied. -/
theorem Yields.isInert (h : Yields provider directives opened task run tree after) :
    ∀ line ∈ task.output tree, line.IsInert directives := by
  have hgenerated : ∀ text, ∀ line ∈ OutputLine.generated text, line.IsInert directives :=
    fun text line hmem => .inl (OutputLine.origin_of_mem_generated hmem)
  induction h with
  | alreadyIncluded => exact hgenerated _
  | entered _ _ _ _ ih => exact ih
  | done => simp [Task.output, ExpansionTree.output]
  | passed _ hline _ ih =>
    cases hline with
    | inBlock | skippedBlock => exact ih
    | alreadyImported => exact List.forall_mem_append.mpr ⟨hgenerated _, ih⟩
    | plain hreading | opening hreading => exact List.forall_mem_cons.mpr ⟨.inr hreading, ih⟩
  | inlined _ _ _ _ _ _ ihchild ihrest =>
    intro line hmem
    rw [Task.output, ExpansionTree.output] at hmem
    simp only [List.mem_append] at hmem
    rcases hmem with ((hbegin | hcontent) | hend) | hbehind
    · exact hgenerated _ line hbegin
    · exact OutputLine.isInert_of_mem_closed ihchild hcontent
    · exact hgenerated _ line hend
    · exact ihrest line hbehind

end Flattened

/-- No line of a flattened text is an import line. -/
theorem call_lines_absent {provider : Provider σ} {limit : Nat} {text : String}
    {opened : OpenFiles} {state : BatchState} {source : σ} {flat : FlatText}
    (h : (provider.call {} limit text opened state source).result = .ok flat)
    (hnames : (provider.call {} limit text opened state source).run.HasPlainNames) :
    ∀ line ∈ Text.lines flat.text, ImportReading.ofLine {} line = .absent := by
  obtain ⟨tree, htree, rfl, hyields⟩ := call_yields h
  have hmapped := (expands_expandFile provider {} limit opened (Path.normal text)
    { source, state }).mapped htree (List.Subset.refl _)
  have hcut : Text.lines (tree.flatten (Path.normal text)).text = _ :=
    Text.lines_join hmapped.areLines
  rw [hcut, List.forall_mem_map]
  intro line hmem
  rcases hyields.isInert line hmem with hgenerated | habsent
  · obtain ⟨index, hindex⟩ := List.mem_iff_getElem?.mp hmem
    have hfaithful := hmapped.faithful hindex
    rw [OutputLine.Faithful, hgenerated] at hfaithful
    exact (hfaithful.2.2 hnames).absent
  · exact habsent

/-- The lines of a file from a number on, each copied. -/
def OutputLine.copies (file : Path) : Nat → List String → List OutputLine
  | _, [] => []
  | number, line :: lines => ⟨line, .source file number⟩ :: copies file (number + 1) lines

theorem OutputLine.map_text_copies (file : Path) (number : Nat) (lines : List String) :
    (copies file number lines).map (·.text) = lines := by
  induction lines generalizing number with
  | nil => rfl
  | cons line lines ih => simp [copies, ih]

theorem OutputLine.map_origin_copies (file : Path) (number : Nat) (lines : List String) :
    (copies file number lines).map (·.origin) =
      (List.range' number lines.length).map (.source file) := by
  induction lines generalizing number with
  | nil => rfl
  | cons line lines ih => simp [copies, List.range'_succ, ih]

/-- Whether no guard is opened by two different lines of a text. -/
def Text.OpensOnce (text : String) : Prop :=
  ∀ name m n, guardAt? text m = some name → guardAt? text n = some name → m = n

theorem Text.le_length_of_guardAt? {text name : String} {number : Nat}
    (h : guardAt? text number = some name) : number ≤ (lines text).length := by
  cases number with
  | zero => exact Nat.zero_le _
  | succ index =>
    by_contra hlength
    have hnone : (lines text).drop index = [] := List.drop_eq_nil_iff.mpr (by omega)
    simp [guardAt?, hnone] at h

instance (text : String) : Decidable (Text.OpensOnce text) :=
  decidable_of_iff (∀ m ≤ (Text.lines text).length, ∀ n ≤ (Text.lines text).length,
      (Text.guardAt? text m).isSome → Text.guardAt? text m = Text.guardAt? text n →
        m = n) <| by
    constructor
    · intro h name m n hm hn
      exact h m (Text.le_length_of_guardAt? hm) n (Text.le_length_of_guardAt? hn)
        (by rw [hm]; rfl) (hm.trans hn.symm)
    · intro h m _ n _ hsome hsame
      obtain ⟨name, hm⟩ := Option.isSome_iff_exists.mp hsome
      exact h name m n hm (hsame.symm.trans hm)

/-- Lines of which none is an import line, and none opens a guard that is known or opened again, are
all copied. -/
theorem Site.exists_walk_copies (site : Site σ) (child : Path → RunM σ ExpansionTree)
    {text : String} {before lines : List String} {run : Run σ}
    (hlines : Text.lines text = before ++ lines)
    (habsent : ∀ line ∈ lines, ImportReading.ofLine site.directives line = .absent)
    (honce : Text.OpensOnce text)
    (hnew : ∀ name n, before.length < n → Text.guardAt? text n = some name →
      ¬ run.state.namedGuards.contains name) :
    ∃ tree after, site.walk child lines (before.length + 1) 0 run = (.ok tree, after) ∧
      tree.output site.file (before.length + 1) =
        OutputLine.copies site.file (before.length + 1) lines ∧
      after.events = run.events := by
  induction lines generalizing before run with
  | nil => exact ⟨.done, run, rfl, rfl, rfl⟩
  | cons line lines ih =>
    have hline := habsent line List.mem_cons_self
    have hrest : ∀ other ∈ lines, ImportReading.ofLine site.directives other = .absent :=
      fun other hmem => habsent other (List.mem_cons_of_mem _ hmem)
    have hbehind : Text.lines text = (before ++ [line]) ++ lines := by simp [hlines]
    have hguard := Text.guardAt?_of_eq_append hlines
    have hlength : (before ++ [line]).length = before.length + 1 := List.length_append
    rw [← hlength]
    cases hname : openedGuard? line lines with
    | none =>
      have hlater : ∀ name n, (before ++ [line]).length < n →
          Text.guardAt? text n = some name → ¬ run.state.namedGuards.contains name :=
        fun name n hlt => hnew name n (by omega)
      obtain ⟨tree, after, hwalk, houtput, hevents⟩ := ih hbehind hrest hlater
      refine ⟨.copied line none tree, after, ?_, ?_, hevents⟩
      · rw [walk_plain hline hname, hwalk]
        rfl
      · rw [ExpansionTree.output, houtput, OutputLine.copies]
    | some name =>
      rw [hname] at hguard
      have hfresh := hnew name (before.length + 1) (by omega) hguard
      have hlater : ∀ other n, (before ++ [line]).length < n →
          Text.guardAt? text n = some other →
          ¬ (run.defined name).state.namedGuards.contains other := by
        intro other n hlt hother
        have hdifferent : other ≠ name := by
          rintro rfl
          have := honce other _ _ hguard hother
          omega
        simpa [Run.defined, hdifferent] using hnew other n (by omega) hother
      obtain ⟨tree, after, hwalk, houtput, hevents⟩ := ih hbehind hrest hlater
      refine ⟨.copied line (some name) tree, after, ?_, ?_, hevents⟩
      · rw [walk_opening hline hname hfresh, hwalk]
        rfl
      · rw [ExpansionTree.output, houtput, OutputLine.copies]

/-- A file of which no line is an import line, and that opens no guard twice, comes to itself. -/
theorem call_of_absent {provider : Provider σ} {directives : Directives} (limit : Nat)
    {text content : String} {source : σ}
    (hread : (provider.read (Path.normal text) source).1 = .ok content)
    (habsent : ∀ line ∈ Text.lines content, ImportReading.ofLine directives line = .absent)
    (honce : Text.OpensOnce content) :
    (provider.call directives (limit + 1) text {} {} source).result = .ok
        ⟨content, (List.range' 1 (Text.lines content).length).map (.source (Path.normal text))⟩ ∧
      (provider.call directives (limit + 1) text {} {} source).run.reads = [Path.normal text] := by
  let file := Path.normal text
  let opened : OpenFiles := ⟨[file]⟩
  let run := (Run.asked { source, state := {} } provider file 1).begun directives file content
  have hfresh : ∀ name n, 0 < n → Text.guardAt? content n = some name →
      ¬ run.state.namedGuards.contains name := by
    intro name n _ _
    rw [Run.namedGuards_begun]
    simp [Run.asked, Run.noted, GuardSet.contains]
  have hentered : expandFile provider directives (limit + 1) {} file { source, state := {} } =
      Site.walk ⟨provider, directives, opened, file⟩
        (expandFile provider directives limit opened) (Text.lines content) 1 0 run :=
    expandFile_entered rfl hread fun _ => by simp [BatchState.isGuarded, GuardSet.contains]
  have hlines : Text.lines content = [] ++ Text.lines content := rfl
  obtain ⟨tree, after, hwalk, houtput, hevents⟩ := Site.exists_walk_copies
    ⟨provider, directives, opened, file⟩ (expandFile provider directives limit opened) hlines
    habsent honce hfresh
  have hcall : expandFile provider directives (limit + 1) {} file { source, state := {} } =
      (.ok tree, after) := hentered.trans hwalk
  have hflat : tree.flatten file =
      ⟨content, (List.range' 1 (Text.lines content).length).map (.source file)⟩ := by
    have hlines : tree.output file 1 = OutputLine.copies file 1 (Text.lines content) := houtput
    rw [ExpansionTree.flatten, hlines, FlatText.ofLines, OutputLine.map_text_copies,
      OutputLine.map_origin_copies, Text.join_lines]
  constructor
  · have hresult := congrArg (fun ended => ended.1.map (·.flatten file)) hcall
    exact hresult.trans (congrArg Except.ok hflat)
  · have hreads : run.reads = [file] := by rw [Run.reads_begun, Run.reads_asked]; rfl
    have hafter := congrArg (List.filterMap Event.readPath?) hevents
    exact (congrArg (fun ended => ended.2.reads) hcall).trans (hafter.trans hreads)

theorem Library.read_insert_self (library : Library) (text content : String) :
    (library.insert text content).read (Path.normal text) = .ok content := by
  simp [read, insert, PathMap.get?_insert]

/-- A flattened text is a fixed point. None of its lines is an import line, unless there is a
newline in the name of a file that was read. If no guard is opened by two different lines of it, then
a library of the single file that holds the text expands that file to the same text, with every line
for its own origin, and reads nothing else. -/
theorem call_text_is_fixed_point {provider : Provider σ} {limit : Nat} {text : String}
    {opened : OpenFiles} {state : BatchState} {source : σ} {flat : FlatText}
    (h : (provider.call {} limit text opened state source).result = .ok flat)
    (hnames : ∀ path ∈ (provider.call {} limit text opened state source).run.reads,
      '\n' ∉ path.fileName.toList) :
    (∀ line ∈ Text.lines flat.text, ImportReading.ofLine {} line = .absent) ∧
    (Text.OpensOnce flat.text →
      ∀ file, let again := (Library.ofFiles [(file, flat.text)]).expand {} file
        again.result = .ok ⟨flat.text,
          (List.range' 1 (Text.lines flat.text).length).map (.source (Path.normal file))⟩ ∧
        again.run.reads = [Path.normal file]) := by
  have habsent := call_lines_absent h hnames
  refine ⟨habsent, fun honce file => ?_⟩
  intro again
  let library := Library.ofFiles [(file, flat.text)]
  have hread : (library.provider.read (Path.normal file) ()).1 = .ok flat.text :=
    Library.read_insert_self {} file flat.text
  obtain ⟨hresult, hreads⟩ := call_of_absent library.files.size hread habsent honce
  have hcall : again.toLimited =
      library.provider.call {} (library.files.size + 1) file {} {} () :=
    library.toLimited_expand {} file
  constructor
  · have hsame : again.result.mapError Stop.failed = _ :=
      (congrArg Outcome.result hcall).trans hresult
    exact Library.mapError_eq_ok_iff.mp hsame
  · have hsame := congrArg (fun outcome => outcome.run.reads) hcall
    exact hsame.trans hreads

/-- A library with two guards, of which the second file opens the first one in vain. -/
def guardedTwice : Library :=
  .ofFiles [("main", "#ifndef A\n#define A\n#import \"lib\" twice\n#endif"),
    ("lib", "#pragma once\n#ifndef A\n#define A\n#endif\n#ifndef B\n#define B")]

def guardedTwiceText : FlatText where
  text := "#ifndef A\n#define A\n\n// BEGIN IMPORT: lib (from main)\n#pragma once\n" ++
    "#ifndef B\n#define B\n// END IMPORT: lib\n\n#endif"
  origins := [.source ⟨"main"⟩ 1, .source ⟨"main"⟩ 2, .generated, .generated, .source ⟨"lib"⟩ 1,
    .source ⟨"lib"⟩ 5, .source ⟨"lib"⟩ 6, .generated, .generated, .source ⟨"main"⟩ 4]

theorem call_text_is_fixed_point_guardedTwice :
    let call := guardedTwice.provider.call {} 3 "main" {} {} ()
    let again := (Library.ofFiles [("a/../out", guardedTwiceText.text)]).expand {} "a/../out"
    call.result = .ok guardedTwiceText ∧ (∀ path ∈ call.run.reads, '\n' ∉ path.fileName.toList) ∧
    (∀ line ∈ Text.lines guardedTwiceText.text, ImportReading.ofLine {} line = .absent) ∧
    Text.OpensOnce guardedTwiceText.text ∧
    again.result = .ok ⟨guardedTwiceText.text,
      (List.range' 1 (Text.lines guardedTwiceText.text).length).map (.source ⟨"out"⟩)⟩ ∧
    again.run.reads = [⟨"out"⟩] := by
  intro call again
  have hresult : call.result = .ok guardedTwiceText := by decide +kernel
  have hnames : ∀ path ∈ call.run.reads, '\n' ∉ path.fileName.toList := by decide +kernel
  have honce : Text.OpensOnce guardedTwiceText.text := by decide +kernel
  have hfile : Path.normal "a/../out" = ⟨"out"⟩ := by decide +kernel
  obtain ⟨habsent, hfixed⟩ := call_text_is_fixed_point hresult hnames
  obtain ⟨hagain, hreads⟩ := hfixed honce "a/../out"
  rw [hfile] at hagain hreads
  exact ⟨hresult, hnames, habsent, honce, hagain, hreads⟩

end ShaderInline
