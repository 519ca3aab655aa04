import Mathlib.Data.List.Basic
import Mathlib.Data.List.Induction
import ShaderInline.Directive.Import
import ShaderInline.Text.Line

/-!
# The shape of lines

A line is not empty, and holds a newline at its end or nowhere. Cutting a text gives lines of which
all but the last one are terminated, and texts of that shape are what the joined text is cut into.
No newline survives the trimming of a line, and so none gets into the path of an import.
-/
namespace ShaderInline

/-- A longest run of characters of a kind, and what follows it. -/
theorem takeWhile_dropWhile_eq_iff {α : Type} {p : α → Bool} {as run rest : List α} :
    as.takeWhile p = run ∧ as.dropWhile p = rest ↔
      as = run ++ rest ∧ (∀ a ∈ run, p a) ∧ ∀ a ∈ rest.head?, ¬ p a := by
  constructor
  · rintro ⟨rfl, rfl⟩
    refine ⟨List.takeWhile_append_dropWhile.symm, List.all_eq_true.mp List.all_takeWhile, ?_⟩
    intro a ha
    have hhead := List.head?_dropWhile_not p as
    rw [Option.mem_def.mp ha] at hhead
    simpa using hhead
  · rintro ⟨rfl, hrun, hrest⟩
    have hstop : rest.takeWhile p = [] ∧ rest.dropWhile p = rest := by
      cases rest with
      | nil => exact ⟨rfl, rfl⟩
      | cons a rest =>
        have ha : ¬ p a := hrest a rfl
        exact ⟨List.takeWhile_cons_of_neg ha, List.dropWhile_cons_of_neg ha⟩
    rw [List.takeWhile_append_of_pos hrun, List.dropWhile_append_of_pos hrun, hstop.1, hstop.2,
      List.append_nil]
    exact ⟨rfl, rfl⟩

namespace Text

def IsTerminated (line : String) : Prop := line.toList.getLast? = some '\n'

instance (line : String) : Decidable (IsTerminated line) :=
  inferInstanceAs (Decidable (line.toList.getLast? = some '\n'))

def IsLine (line : String) : Prop := line.toList ≠ [] ∧ '\n' ∉ line.toList.dropLast

/-- Whether these texts are the lines of the text they join to. -/
def AreLines : List String → Prop
  | [] => True
  | line :: lines => IsLine line ∧ (lines ≠ [] → IsTerminated line) ∧ AreLines lines

theorem terminated_of_isTerminated {line : String} (h : IsTerminated line) :
    terminated line = line := if_pos h

theorem isTerminated_terminated (line : String) : IsTerminated (terminated line) := by
  unfold terminated
  split
  case isTrue h => exact h
  case isFalse => simp [IsTerminated]

theorem newline_not_mem {line : String} (h : IsLine line) (hopen : ¬ IsTerminated line) :
    '\n' ∉ line.toList := by
  intro hmem
  have hlast := List.dropLast_append_getLast h.1
  rw [← hlast, List.mem_append, List.mem_singleton] at hmem
  rcases hmem with hinside | hend
  · exact h.2 hinside
  · apply hopen
    rw [IsTerminated, List.getLast?_eq_some_getLast h.1, ← hend]

theorem IsLine.terminated {line : String} (h : IsLine line) : IsLine (Text.terminated line) := by
  by_cases ht : IsTerminated line
  · rwa [terminated_of_isTerminated ht]
  · have hadded : Text.terminated line = line ++ "\n" := if_neg ht
    refine ⟨by simp [hadded], ?_⟩
    simpa [hadded] using newline_not_mem h ht

/-- A terminated line is its characters before the newline, and the newline. -/
theorem exists_of_isTerminated {line : String} (h : IsLine line) (ht : IsTerminated line) :
    ∃ cs, '\n' ∉ cs ∧ line.toList = cs ++ ['\n'] := by
  have hlast := List.dropLast_append_getLast h.1
  rw [IsTerminated, List.getLast?_eq_some_getLast h.1, Option.some.injEq] at ht
  exact ⟨line.toList.dropLast, h.2, by rw [← ht, hlast]⟩

theorem lineChars_append_newline {cs : List Char} (h : '\n' ∉ cs) (rest : List Char) :
    lineChars (cs ++ '\n' :: rest) = (cs ++ ['\n']) :: lineChars rest := by
  induction cs with
  | nil => simp [lineChars]
  | cons c cs ih =>
    have hc : c ≠ '\n' := fun hc => h (by simp [hc])
    have hcs : '\n' ∉ cs := fun hmem => h (List.mem_cons_of_mem _ hmem)
    simp [lineChars, hc, ih hcs]

theorem lineChars_of_not_mem {cs : List Char} (hne : cs ≠ []) (h : '\n' ∉ cs) :
    lineChars cs = [cs] := by
  induction cs with
  | nil => exact absurd rfl hne
  | cons c cs ih =>
    have hc : c ≠ '\n' := fun hc => h (by simp [hc])
    have hcs : '\n' ∉ cs := fun hmem => h (List.mem_cons_of_mem _ hmem)
    cases cs with
    | nil => simp [lineChars, hc]
    | cons d cs => rw [lineChars, if_neg hc, ih (by simp) hcs]

theorem lines_append_of_isTerminated {line : String} (h : IsLine line) (ht : IsTerminated line)
    (text : String) : lines (line ++ text) = line :: lines text := by
  obtain ⟨cs, hcs, hline⟩ := exists_of_isTerminated h ht
  have hchars := lineChars_append_newline hcs text.toList
  rw [lines, String.toList_append, hline, List.append_assoc, List.singleton_append, hchars,
    List.map_cons, ← hline, String.ofList_toList]
  rfl

theorem lines_of_isLine {line : String} (h : IsLine line) : lines line = [line] := by
  by_cases ht : IsTerminated line
  · have hcut := lines_append_of_isTerminated h ht ""
    rwa [String.append_empty] at hcut
  · rw [lines, lineChars_of_not_mem h.1 (newline_not_mem h ht)]
    simp

/-- Lines that are joined are cut apart again. -/
theorem lines_join {ls : List String} (h : AreLines ls) : lines (String.join ls) = ls := by
  induction ls with
  | nil => rfl
  | cons line ls ih =>
    obtain ⟨hline, ht, hls⟩ := h
    rw [String.join_cons]
    by_cases hne : ls = []
    · subst hne
      have hempty : line ++ String.join [] = line := String.append_empty
      rw [hempty, lines_of_isLine hline]
    · rw [lines_append_of_isTerminated hline (ht hne), ih hls]

theorem areLines_lineChars (cs : List Char) : AreLines ((lineChars cs).map String.ofList) := by
  induction cs with
  | nil => trivial
  | cons c cs ih =>
    unfold lineChars
    split
    case isTrue hc =>
      subst hc
      refine ⟨⟨by simp, by simp⟩, fun _ => by simp [IsTerminated], ih⟩
    case isFalse hc =>
      cases hcut : lineChars cs with
      | nil => exact ⟨⟨by simp, by simp⟩, fun hne => absurd rfl hne, trivial⟩
      | cons line lines =>
        rw [hcut] at ih
        obtain ⟨⟨hne, hinside⟩, ht, hlines⟩ := ih
        rw [String.toList_ofList] at hne hinside
        obtain ⟨d, ds, rfl⟩ := List.exists_cons_of_ne_nil hne
        refine ⟨⟨by simp, ?_⟩, fun hrest => ?_, hlines⟩
        · rw [String.toList_ofList, List.dropLast_cons_cons, List.mem_cons]
          exact fun hmem => hmem.elim (fun h => hc h.symm) hinside
        · simpa [IsTerminated] using ht hrest

/-- A text is cut into lines of which only the last one can lack its terminator. -/
theorem areLines_lines (text : String) : AreLines (lines text) := areLines_lineChars _

theorem AreLines.isLine {ls : List String} (h : AreLines ls) {line : String} (hmem : line ∈ ls) :
    IsLine line := by
  induction ls with
  | nil => cases hmem
  | cons head ls ih =>
    rcases List.mem_cons.mp hmem with rfl | hmem
    · exact h.1
    · exact ih h.2.2 hmem

theorem AreLines.isTerminated {before following : List String} {line : String}
    (h : AreLines (before ++ line :: following)) (hne : following ≠ []) : IsTerminated line := by
  induction before with
  | nil => exact h.2.1 hne
  | cons head before ih => exact ih h.2.2

/-- Nothing follows a line that lacks its terminator. -/
theorem length_lines_of_line? {text line : String} {number : Nat}
    (h : line? text number = some line) (hopen : ¬ IsTerminated line) :
    number = (lines text).length := by
  cases number with
  | zero => cases h
  | succ index =>
    obtain ⟨hindex, hline⟩ := List.getElem?_eq_some_iff.mp h
    have hparts : lines text =
        (lines text).take index ++ line :: (lines text).drop (index + 1) := by
      rw [← hline, List.getElem_cons_drop, List.take_append_drop]
    have hlines := areLines_lines text
    rw [hparts] at hlines
    by_contra hlength
    apply hopen (hlines.isTerminated ?_)
    intro hnil
    have := List.drop_eq_nil_iff.mp hnil
    omega

theorem isLine_newline : IsLine "\n" := by
  constructor <;> simp

theorem isLine_append_newline {text : String} (h : '\n' ∉ text.toList) : IsLine (text ++ "\n") := by
  constructor <;> simp [h]

theorem isTerminated_append_newline (text : String) : IsTerminated (text ++ "\n") := by
  simp [IsTerminated]

theorem getLast?_of_mem_lineChars {cs line : List Char}
    (h : line ∈ lineChars (cs ++ ['\n'])) : line.getLast? = some '\n' := by
  induction cs generalizing line with
  | nil =>
    have hline : line = ['\n'] := by simpa [lineChars] using h
    simp [hline]
  | cons c cs ih =>
    rw [List.cons_append, lineChars] at h
    split at h
    case isTrue hc =>
      rcases List.mem_cons.mp h with rfl | hmem
      · simp [hc]
      · exact ih hmem
    case isFalse =>
      split at h
      case h_1 hcut =>
        have hflat := flatten_lineChars (cs ++ ['\n'])
        simp [hcut] at hflat
      case h_2 first others hcut =>
        rw [hcut] at ih
        rcases List.mem_cons.mp h with rfl | hmem
        · have hfirst := ih (List.mem_cons_self (a := first))
          have hne : first ≠ [] := by
            rintro rfl
            cases hfirst
          obtain ⟨d, ds, rfl⟩ := List.exists_cons_of_ne_nil hne
          simpa using hfirst
        · exact ih (List.mem_cons_of_mem _ hmem)

/-- A text that ends with a newline has terminated lines only. -/
theorem isTerminated_of_mem_lines {text line : String} (h : line ∈ lines (text ++ "\n")) :
    IsTerminated line := by
  obtain ⟨cs, hcs, rfl⟩ := List.mem_map.mp h
  rw [String.toList_append] at hcs
  rw [IsTerminated, String.toList_ofList]
  exact getLast?_of_mem_lineChars hcs

theorem isLine_of_line? {text line : String} {number : Nat} (h : line? text number = some line) :
    IsLine line :=
  (areLines_lines text).isLine (mem_lines_of_line? h)

theorem trimChars_subset (cs : List Char) : trimChars cs ⊆ cs := by
  intro c hmem
  have hfront := (List.dropWhile_sublist isBlank).subset (List.mem_reverse.mp hmem)
  exact (List.dropWhile_sublist isBlank).subset (List.mem_reverse.mp hfront)

theorem trimChars_concat {c : Char} (hblank : isBlank c) (cs : List Char) :
    trimChars (cs ++ [c]) = trimChars cs := by
  rw [trimChars, trimChars, List.dropWhile_append]
  split
  case isTrue hempty =>
    rw [List.isEmpty_iff.mp hempty, List.dropWhile_cons_of_pos hblank]
    rfl
  case isFalse =>
    rw [List.reverse_append, List.reverse_singleton, List.singleton_append,
      List.dropWhile_cons_of_pos hblank]

theorem trimChars_append_of_blank (cs : List Char) {blanks : List Char}
    (h : ∀ c ∈ blanks, isBlank c) : trimChars (cs ++ blanks) = trimChars cs := by
  induction blanks using List.reverseRecOn with
  | nil => rw [List.append_nil]
  | append_singleton blanks c ih =>
    have hblank := h c (by simp)
    rw [← List.append_assoc, trimChars_concat hblank,
      ih fun other hmem => h other (List.mem_append_left _ hmem)]

/-- A blank that a text holds at its end at most is trimmed away. -/
theorem not_mem_trimChars {cs : List Char} {c : Char} (hblank : isBlank c)
    (h : c ∉ cs.dropLast) : c ∉ trimChars cs := by
  rcases List.eq_nil_or_concat cs with rfl | ⟨init, last, rfl⟩
  · simp [trimChars]
  · rw [List.concat_eq_append, List.dropLast_concat] at h
    by_cases hlast : last = c
    · subst hlast
      intro hmem
      rw [List.concat_eq_append, trimChars, List.mem_reverse, List.dropWhile_append] at hmem
      split at hmem
      case isTrue => simp [hblank] at hmem
      case isFalse =>
        rw [List.reverse_append, List.reverse_singleton, List.singleton_append,
          List.dropWhile_cons_of_pos hblank] at hmem
        have hfront := (List.dropWhile_sublist isBlank).subset hmem
        exact h ((List.dropWhile_sublist isBlank).subset (List.mem_reverse.mp hfront))
    · intro hmem
      have hline := trimChars_subset _ hmem
      rw [List.concat_eq_append, List.mem_append, List.mem_singleton] at hline
      exact hline.elim h fun hc => hlast hc.symm

end Text

namespace ImportReading

theorem closedPath?_subset {close : Char} {cs path rest : List Char}
    (h : closedPath? close cs = some (path, rest)) : path ⊆ cs := by
  unfold closedPath? at h
  split at h
  case h_1 hpath _ =>
    split at h
    · cases h
      rw [← hpath]
      exact (List.takeWhile_sublist isPathChar).subset
    · cases h
  case h_2 => cases h

theorem delimitedPath?_subset {cs path rest : List Char}
    (h : delimitedPath? cs = some (path, rest)) : path ⊆ cs := by
  unfold delimitedPath? at h
  split at h
  case h_1 cs => exact List.subset_cons_of_subset _ (closedPath?_subset h)
  case h_2 cs => exact List.subset_cons_of_subset _ (closedPath?_subset h)
  case h_3 => cases h

theorem operand?_subset {cs path rest : List Char} (h : operand? cs = some (path, rest)) :
    path ⊆ cs := by
  unfold operand? at h
  split at h
  case h_2 => cases h
  case h_1 c cs =>
    split at h
    · have hblanks : cs.dropWhile Text.isBlank ⊆ cs := (List.dropWhile_sublist _).subset
      have hpath := List.Subset.trans (delimitedPath?_subset h) hblanks
      exact List.subset_cons_of_subset _ hpath
    · cases h

theorem importText_subset {directives : Directives} {line importText : String}
    {trailing : Option String} (h : ofLine directives line = .directive importText trailing) :
    importText.toList ⊆ Text.trimChars line.toList := by
  unfold ofLine at h
  split at h
  · cases h
  · next following hprefix =>
      have happend := List.append_eq_of_isPrefixOf?_eq_some hprefix
      split at h
      · next path rest hoperand =>
          cases h
          rw [String.toList_ofList, ← happend]
          exact List.subset_append_of_subset_right _ (operand?_subset hoperand)
      · cases h

/-- The path of an import line holds no newline. -/
theorem newline_not_mem {directives : Directives} {line importText : String}
    {trailing : Option String} (hline : Text.IsLine line)
    (h : ofLine directives line = .directive importText trailing) : '\n' ∉ importText.toList := by
  have htrimmed : '\n' ∉ Text.trimChars line.toList :=
    Text.not_mem_trimChars (by decide) hline.2
  exact fun hmem => htrimmed (importText_subset h hmem)

end ImportReading

end ShaderInline
