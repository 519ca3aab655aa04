import Mathlib.Data.Nat.Digits.Defs
import ShaderInline.Log.Relocation
import ShaderInline.Proofs.Lines

/-!
# How locations are written

A location is recognised exactly where one is written: a severity and two numbers set off by colons,
or a number and another one in parentheses. Blanks, digits and punctuation are told apart, so there
is one way to read a location, and none begins within another one.
-/
namespace ShaderInline

theorem Text.exists_range_of_inRanges {ranges : List (Nat × Nat)} {c : Char}
    (h : inRanges ranges c) : ∃ range ∈ ranges, range.1 ≤ c.toNat ∧ c.toNat ≤ range.2 := by
  induction ranges with
  | nil => cases h
  | cons range ranges ih =>
    obtain ⟨low, high⟩ := range
    rw [inRanges] at h
    split at h
    case isTrue => cases h
    case isFalse hlow =>
      rw [Bool.or_eq_true, decide_eq_true_eq] at h
      rcases h with hhigh | hlater
      · exact ⟨_, List.mem_cons_self, by omega, hhigh⟩
      · obtain ⟨later, hmem, hrange⟩ := ih hlater
        exact ⟨later, List.mem_cons_of_mem _ hmem, hrange⟩

/-- No digit is a blank. -/
theorem Text.not_isBlank_of_isDecimalDigit {c : Char} (h : isDecimalDigit c) : ¬ isBlank c := by
  intro hblank
  have hapart : ∀ blanks ∈ blankRanges, ∀ digits ∈ decimalDigitRanges,
      blanks.2 < digits.1 ∨ digits.2 < blanks.1 := by decide
  obtain ⟨digits, hdigits, hlow, hhigh⟩ := exists_range_of_inRanges h
  obtain ⟨blanks, hblanks, hlow', hhigh'⟩ := exists_range_of_inRanges hblank
  have := hapart blanks hblanks digits hdigits
  omega

namespace Log

/-- The two forms of locations. -/
inductive Form where
  | severe
  | parenthesized
  deriving DecidableEq, Repr

def Form.find? : Form → List Char → Option Location
  | severe => Location.severe?
  | parenthesized => Location.parenthesized?

def IsNumber (digits : List Char) : Prop := digits ≠ [] ∧ ∀ c ∈ digits, Text.isDecimalDigit c

def IsSeverity (severity : String) : Prop := severity = "ERROR" ∨ severity = "WARNING"

/-- `Reads form location following`: the location is written in the given form, and `following` does
not go on with it. -/
inductive Reads : Form → Location → List Char → Prop
  | severe {severity : String} {blanks string line following : List Char}
      (hseverity : IsSeverity severity) (hblanks : ∀ c ∈ blanks, Text.isBlank c)
      (hstring : IsNumber string) (hline : IsNumber line)
      (hend : ∀ c ∈ following.head?, ¬ Text.isDecimalDigit c) :
      Reads .severe ⟨severity.toList ++ [':', ' '], line,
        severity.toList ++ ':' :: blanks ++ string ++ ':' :: line⟩ following
  | parenthesized {string line following : List Char} (hstring : IsNumber string)
      (hline : IsNumber line) :
      Reads .parenthesized ⟨[], line, string ++ '(' :: line ++ [')']⟩ following

section Readers

variable {cs digits rest following : List Char} {form : Form} {location : Location}
  {severity : String}

theorem number?_eq_some_iff : number? cs = some (digits, rest) ↔
    cs = digits ++ rest ∧ IsNumber digits ∧ ∀ c ∈ rest.head?, ¬ Text.isDecimalDigit c := by
  have hcut : number? cs = some (digits, rest) ↔ digits ≠ [] ∧
      cs.takeWhile Text.isDecimalDigit = digits ∧ cs.dropWhile Text.isDecimalDigit = rest := by
    unfold number?
    split
    · next hnil =>
        rw [hnil]
        refine iff_of_false (by simp) ?_
        rintro ⟨hne, rfl, _⟩
        exact hne rfl
    · next taken hne =>
        rw [Option.some.injEq, Prod.mk.injEq]
        exact ⟨fun h => ⟨h.1 ▸ hne, h⟩, And.right⟩
  rw [hcut, takeWhile_dropWhile_eq_iff, IsNumber]
  tauto

theorem after?_eq_some_iff {c : Char} : after? c cs = some rest ↔ cs = c :: rest := by
  cases cs with
  | nil => simp [after?]
  | cons d cs => simp [after?]

theorem IsNumber.head? (h : IsNumber digits) (rest : List Char) :
    ∃ c ∈ (digits ++ rest).head?, Text.isDecimalDigit c := by
  obtain ⟨c, cs, rfl⟩ := List.exists_cons_of_ne_nil h.1
  exact ⟨c, rfl, h.2 c List.mem_cons_self⟩

/-- The digits of a number are a longest run, in front of anything but a digit. -/
theorem number?_append {c : Char} (h : IsNumber digits) (hc : ¬ Text.isDecimalDigit c)
    (rest : List Char) : number? (digits ++ c :: rest) = some (digits, c :: rest) :=
  number?_eq_some_iff.mpr ⟨rfl, h, by simpa using hc⟩

theorem withSeverity?_eq_some_iff : Location.withSeverity? severity cs = some location ↔
    ∃ blanks string line following, (∀ c ∈ blanks, Text.isBlank c) ∧ IsNumber string ∧
      IsNumber line ∧ (∀ c ∈ following.head?, ¬ Text.isDecimalDigit c) ∧
      location = ⟨severity.toList ++ [':', ' '], line,
        severity.toList ++ ':' :: blanks ++ string ++ ':' :: line⟩ ∧
      cs = location.written ++ following := by
  simp only [Location.withSeverity?, Option.bind_eq_bind, Option.bind_eq_some_iff, Prod.exists,
    List.isPrefixOf?_eq_some_iff_append_eq, after?_eq_some_iff]
  constructor
  · rintro ⟨_, rfl, behind, rfl, string, _, hread, _, rfl, line, following, hread', hlocation⟩
    obtain ⟨hcut, hstring, _⟩ := number?_eq_some_iff.mp hread
    obtain ⟨rfl, hline, hend⟩ := number?_eq_some_iff.mp hread'
    obtain ⟨hbehind, hblanks, _⟩ := takeWhile_dropWhile_eq_iff.mp ⟨rfl, hcut⟩
    cases hlocation
    refine ⟨_, string, line, following, hblanks, hstring, hline, hend, rfl, ?_⟩
    conv_lhs => rw [hbehind]
    simp
  · rintro ⟨blanks, string, line, following, hblanks, hstring, hline, hend, rfl, rfl⟩
    have hcut : (blanks ++ (string ++ ':' :: (line ++ following))).takeWhile Text.isBlank = blanks ∧
        (blanks ++ (string ++ ':' :: (line ++ following))).dropWhile Text.isBlank =
          string ++ ':' :: (line ++ following) := by
      refine takeWhile_dropWhile_eq_iff.mpr ⟨rfl, hblanks, fun c hc => ?_⟩
      obtain ⟨d, hd, hdigit⟩ := hstring.head? (':' :: (line ++ following))
      rw [Option.mem_unique hc hd]
      exact Text.not_isBlank_of_isDecimalDigit hdigit
    refine ⟨_, by simp, blanks ++ (string ++ ':' :: (line ++ following)), rfl, string,
      ':' :: (line ++ following), ?_, line ++ following, rfl, line, following, ?_, ?_⟩
    · rw [hcut.2]
      exact number?_append hstring (by decide) _
    · exact number?_eq_some_iff.mpr ⟨rfl, hline, hend⟩
    · rw [hcut.1]
      rfl

theorem parenthesized?_eq_some_iff : Location.parenthesized? cs = some location ↔
    ∃ string line following, IsNumber string ∧ IsNumber line ∧
      location = ⟨[], line, string ++ '(' :: line ++ [')']⟩ ∧
      cs = location.written ++ following := by
  simp only [Location.parenthesized?, Option.bind_eq_bind, Option.bind_eq_some_iff, Prod.exists,
    after?_eq_some_iff]
  constructor
  · rintro ⟨string, _, hread, _, rfl, line, _, hread', following, rfl, hlocation⟩
    obtain ⟨rfl, hstring, _⟩ := number?_eq_some_iff.mp hread
    obtain ⟨rfl, hline, _⟩ := number?_eq_some_iff.mp hread'
    cases hlocation
    exact ⟨string, line, following, hstring, hline, rfl, by simp⟩
  · rintro ⟨string, line, following, hstring, hline, rfl, rfl⟩
    refine ⟨string, '(' :: (line ++ ')' :: following), ?_, line ++ ')' :: following, rfl, line,
      ')' :: following, number?_append hline (by decide) _, following, rfl, rfl⟩
    have hnumber := number?_append hstring (c := '(') (by decide) (line ++ ')' :: following)
    simpa using hnumber

/-- A location is found where one is written, and nowhere else. -/
theorem find?_eq_some_iff :
    form.find? cs = some location ↔
      ∃ following, cs = location.written ++ following ∧ Reads form location following := by
  cases form with
  | severe =>
    rw [Form.find?, Location.severe?, Option.or_eq_some_iff, withSeverity?_eq_some_iff,
      withSeverity?_eq_some_iff]
    constructor
    · rintro (⟨_, _, _, following, hblanks, hstring, hline, hend, rfl, hcs⟩ |
        ⟨_, _, _, _, following, hblanks, hstring, hline, hend, rfl, hcs⟩)
      · exact ⟨following, hcs, .severe (.inl rfl) hblanks hstring hline hend⟩
      · exact ⟨following, hcs, .severe (.inr rfl) hblanks hstring hline hend⟩
    · rintro ⟨following, hcs, hreads⟩
      cases hreads with
      | severe hseverity hblanks hstring hline hend =>
        rcases hseverity with rfl | rfl
        · exact .inl ⟨_, _, _, following, hblanks, hstring, hline, hend, rfl, hcs⟩
        · refine .inr ⟨?_, _, _, _, following, hblanks, hstring, hline, hend, rfl, hcs⟩
          rw [Option.eq_none_iff_forall_ne_some]
          intro other hother
          obtain ⟨_, _, _, _, _, _, _, _, rfl, hcs'⟩ := withSeverity?_eq_some_iff.mp hother
          rw [hcs] at hcs'
          simp at hcs'
  | parenthesized =>
    rw [Form.find?, parenthesized?_eq_some_iff]
    constructor
    · rintro ⟨string, line, following, hstring, hline, rfl, hcs⟩
      exact ⟨following, hcs, .parenthesized hstring hline⟩
    · rintro ⟨following, hcs, hreads⟩
      cases hreads with
      | parenthesized hstring hline => exact ⟨_, _, following, hstring, hline, rfl, hcs⟩

end Readers

/-- Whether a location of the form may begin with a character. -/
def Form.Begins : Form → Char → Prop
  | severe, c => c = 'E' ∨ c = 'W'
  | parenthesized, c => Text.isDecimalDigit c

/-- Whether a location of the form may end with a character. -/
def Form.Ends : Form → Char → Prop
  | severe, c => Text.isDecimalDigit c
  | parenthesized, c => c = ')'

namespace Form.Begins

variable {form form' : Form} {c : Char}

theorem unique (h : form.Begins c) (h' : form'.Begins c) : form = form' := by
  have hletter : ¬ (Form.severe.Begins c ∧ Form.parenthesized.Begins c) := by
    rintro ⟨hletter, hdigit⟩
    have hother : ¬ Text.isDecimalDigit 'E' ∧ ¬ Text.isDecimalDigit 'W' := by decide
    rcases hletter with rfl | rfl
    · exact hother.1 hdigit
    · exact hother.2 hdigit
  cases form <;> cases form'
  · rfl
  · exact absurd ⟨h, h'⟩ hletter
  · exact absurd ⟨h', h⟩ hletter
  · rfl

theorem not_isBlank (h : form.Begins c) : ¬ Text.isBlank c := by
  cases form with
  | severe => rcases h with rfl | rfl <;> decide
  | parenthesized => exact Text.not_isBlank_of_isDecimalDigit h

end Form.Begins

theorem Form.Ends.ne_newline {form : Form} {c : Char} (h : form.Ends c) : c ≠ '\n' := by
  rintro rfl
  cases form with
  | severe =>
    have hdigit : Text.isDecimalDigit '\n' := h
    exact absurd hdigit (by decide)
  | parenthesized => cases h

namespace Reads

variable {form form' : Form} {location location' : Location} {following following' : List Char}

theorem exists_begins (h : Reads form location following) :
    ∃ c cs, location.written = c :: cs ∧ form.Begins c := by
  cases h with
  | severe hseverity =>
    rcases hseverity with rfl | rfl
    · exact ⟨'E', _, rfl, .inl rfl⟩
    · exact ⟨'W', _, rfl, .inr rfl⟩
  | parenthesized hstring =>
    obtain ⟨c, cs, rfl⟩ := List.exists_cons_of_ne_nil hstring.1
    exact ⟨c, _, rfl, hstring.2 c List.mem_cons_self⟩

theorem written_ne_nil (h : Reads form location following) : location.written ≠ [] := by
  obtain ⟨c, cs, hwritten, _⟩ := h.exists_begins
  simp [hwritten]

theorem exists_ends (h : Reads form location following) :
    ∃ cs c, location.written = cs ++ [c] ∧ form.Ends c := by
  cases h with
  | @severe severity blanks string _ _ _ _ _ hline =>
    obtain ⟨line, c, rfl⟩ := (List.eq_nil_or_concat _).resolve_left hline.1
    rw [List.concat_eq_append] at hline
    exact ⟨severity.toList ++ ':' :: blanks ++ string ++ ':' :: line, c, by simp,
      hline.2 c (by simp)⟩
  | @parenthesized string line => exact ⟨string ++ '(' :: line, ')', rfl, rfl⟩

/-- Nothing goes on with a parenthesis. -/
theorem replace_parenthesized (h : Reads .parenthesized location following)
    (following' : List Char) : Reads .parenthesized location following' := by
  cases h with
  | parenthesized hstring hline => exact .parenthesized hstring hline

/-- A text begins with one location at most. -/
theorem unique (h : Reads form location following) (h' : Reads form' location' following')
    (htext : location.written ++ following = location'.written ++ following') :
    form = form' ∧ location = location' := by
  obtain ⟨c, cs, hwritten, hbegins⟩ := h.exists_begins
  obtain ⟨d, ds, hwritten', hbegins'⟩ := h'.exists_begins
  have hhead := congrArg List.head? htext
  rw [hwritten, hwritten'] at hhead
  obtain rfl : c = d := by simpa using hhead
  obtain rfl := hbegins.unique hbegins'
  have hfind := find?_eq_some_iff.mpr ⟨following, rfl, h⟩
  have hfind' := find?_eq_some_iff.mpr ⟨following', htext, h'⟩
  exact ⟨rfl, Option.some.inj (hfind.symm.trans hfind')⟩

theorem mem_written {c : Char} (h : Reads .parenthesized location following)
    (hc : ¬ Text.isDecimalDigit c) (hmem : c ∈ location.written) : c = '(' ∨ c = ')' := by
  cases h with
  | parenthesized hstring hline =>
    simp only [List.append_assoc, List.cons_append, List.mem_append, List.mem_cons,
      List.not_mem_nil, or_false] at hmem
    rcases hmem with hmem | rfl | hmem | rfl
    · exact absurd (hstring.2 c hmem) hc
    · exact .inl rfl
    · exact absurd (hline.2 c hmem) hc
    · exact .inr rfl

/-- Behind a newline in a location there are blanks and the numbers. -/
theorem exists_tail {front back : List Char} (h : Reads form location following)
    (hsplit : location.written = front ++ back) (hfront : front.getLast? = some '\n') :
    ∃ blanks string line, back = blanks ++ (string ++ ':' :: line) ∧
      (∀ c ∈ blanks, Text.isBlank c) ∧ IsNumber string := by
  have hmem : '\n' ∈ front := List.mem_of_getLast? hfront
  have hdigit : ∀ digits, IsNumber digits → '\n' ∉ digits :=
    fun digits hdigits hmem => absurd (hdigits.2 _ hmem) (by decide)
  cases h with
  | parenthesized hstring hline =>
    have hreads : Reads .parenthesized _ following := .parenthesized hstring hline
    have hwritten := hreads.mem_written (c := '\n') (by decide)
      (by rw [hsplit]; exact List.mem_append_left _ hmem)
    exact absurd hwritten (by decide)
  | @severe severity blanks string line _ hseverity hblanks hstring hline _ =>
    have htail : '\n' ∉ string ++ ':' :: line := by
      simp [hdigit string hstring, hdigit line hline]
    have hsplit : (severity.toList ++ [':']) ++ (blanks ++ (string ++ ':' :: line)) =
        front ++ back := by
      rw [← hsplit]
      simp
    rcases List.append_eq_append_iff.mp hsplit with ⟨front', rfl, hbehind⟩ | ⟨behind, hhead, _⟩
    · rcases List.append_eq_append_iff.mp hbehind with ⟨inside, rfl, hinside⟩ | ⟨left, hleft, rfl⟩
      · cases inside with
        | nil => exact ⟨[], string, line, hinside.symm, by simp, hstring⟩
        | cons c inside =>
          have hlast : '\n' ∈ c :: inside := by
            rw [← List.append_assoc, List.getLast?_append_of_ne_nil _ (by simp)] at hfront
            exact List.mem_of_getLast? hfront
          rw [hinside] at htail
          exact absurd (List.mem_append_left _ hlast) htail
      · exact ⟨left, string, line, rfl, fun c hc => hblanks c (by simp [hleft, hc]), hstring⟩
    · have hnewline : '\n' ∈ severity.toList ++ [':'] := by
        rw [hhead]
        exact List.mem_append_left _ hmem
      rcases hseverity with rfl | rfl <;> exact absurd hnewline (by decide)

/-- No location begins within another one. -/
theorem find?_eq_none {front back : List Char} (h : Reads form location following)
    (hsplit : location.written = front ++ back) (hfront : front.getLast? = some '\n')
    (form' : Form) (rest : List Char) : form'.find? (back ++ rest) = none := by
  obtain ⟨blanks, string, line, rfl, hblanks, hstring⟩ := h.exists_tail hsplit hfront
  rw [Option.eq_none_iff_forall_ne_some]
  intro other hother
  obtain ⟨following', htext, hreads⟩ := find?_eq_some_iff.mp hother
  obtain ⟨c, cs, hwritten, hbegins⟩ := hreads.exists_begins
  cases blanks with
  | cons d blanks =>
    have hhead := congrArg List.head? htext
    rw [hwritten] at hhead
    obtain rfl : d = c := by simpa using hhead
    exact hbegins.not_isBlank (hblanks d List.mem_cons_self)
  | nil =>
    obtain ⟨d, hd, hdigit⟩ := hstring.head? (':' :: (line ++ rest))
    have hhead := congrArg List.head? htext
    rw [List.nil_append, List.append_assoc, List.cons_append, Option.mem_def.mp hd, hwritten] at hhead
    obtain rfl : d = c := by simpa using hhead
    have hform : Form.parenthesized.Begins d := hdigit
    obtain rfl := hbegins.unique hform
    -- A number in front of a colon is not one in front of a parenthesis.
    have hnumber := number?_append hstring (c := ':') (by decide) (line ++ rest)
    cases hreads with
    | @parenthesized string' line' _ hstring' hline' =>
      have hnumber' := number?_append hstring' (c := '(') (by decide) (line' ++ ')' :: following')
      have hsame : string ++ ':' :: (line ++ rest) =
          string' ++ '(' :: (line' ++ ')' :: following') := by simpa using htext
      rw [hsame, hnumber'] at hnumber
      simp at hnumber

end Reads

section Places

variable {flat : FlatText} {digits : List Char} {number : Nat} {place : String}

/-- Whether the digits are the ASCII numeral of a number. -/
def IsNumeral (digits : List Char) (number : Nat) : Prop :=
  (∀ c ∈ digits, c.isDigit) ∧
    Nat.ofDigits 10 (digits.reverse.map fun c => c.toNat - '0'.toNat) = number

/-- Whether the digits are the number of a line that was copied from the given place in a file. -/
def IsPlace (flat : FlatText) (digits : List Char) (place : String) : Prop :=
  ∃ number file line, IsNumeral digits number ∧ number < UInt64.size ∧
    flat.origin? number = some (.source file line) ∧
    place = file.text ++ "(" ++ toString line ++ ")"

theorem lineNumber?_eq_some_iff :
    lineNumber? digits = some number ↔ IsNumeral digits number ∧ number < UInt64.size := by
  have hvalue : digits.foldl (fun value c => 10 * value + (c.toNat - '0'.toNat)) 0 =
      Nat.ofDigits 10 (digits.reverse.map fun c => c.toNat - '0'.toNat) := by
    rw [Nat.ofDigits_eq_foldr, List.foldr_map, List.foldl_eq_foldr_reverse]
    simp [Nat.add_comm]
  simp only [lineNumber?, IsNumeral, hvalue, List.all_eq_true]
  split
  case isTrue hdigits =>
    split
    case isTrue hfits =>
      rw [Option.some.injEq]
      exact ⟨fun h => ⟨⟨hdigits, h⟩, h ▸ hfits⟩, fun h => h.1.2⟩
    case isFalse hlarge => exact iff_of_false (by simp) fun h => hlarge (h.1.2 ▸ h.2)
  case isFalse hother => exact iff_of_false (by simp) fun h => hother h.1.1

theorem place?_eq_some_iff : place? flat digits = some place ↔ IsPlace flat digits place := by
  unfold place?
  constructor
  · intro h
    split at h
    case h_1 file line horigin =>
      obtain ⟨number, hnumber, horigin⟩ := Option.bind_eq_some_iff.mp horigin
      obtain ⟨hnumeral, hfits⟩ := lineNumber?_eq_some_iff.mp hnumber
      exact ⟨number, file, line, hnumeral, hfits, horigin, (Option.some.inj h).symm⟩
    case h_2 => cases h
  · rintro ⟨number, file, line, hnumeral, hfits, horigin, rfl⟩
    rw [lineNumber?_eq_some_iff.mpr ⟨hnumeral, hfits⟩, Option.bind_some, horigin]

theorem exists_eq_of_place? (h : place? flat digits = some place) :
    ∃ cs, place.toList = cs ++ [')'] := by
  obtain ⟨_, file, line, _, _, _, rfl⟩ := place?_eq_some_iff.mp h
  exact ⟨(file.text ++ "(" ++ toString line).toList, by simp⟩

end Places

end Log

end ShaderInline
