import ShaderInline.Proofs.LogPasses

/-!
# Logs line by line

A log is relocated line by line, except where the blanks of a location run over the end of a line and
the location is replaced. There the line is joined with the ones behind it.
-/
namespace ShaderInline

namespace Log

section Extending

variable {form : Form} {location : Location} {front back following : List Char}

theorem Reads.append (h : Reads form location following)
    (hback : ∀ c ∈ back.head?, ¬ Text.isDecimalDigit c) :
    Reads form location (following ++ back) := by
  cases h with
  | severe hseverity hblanks hstring hline hend =>
    refine .severe hseverity hblanks hstring hline fun c hc => ?_
    rw [List.head?_append] at hc
    cases hhead : following.head? with
    | none =>
      rw [hhead] at hc
      exact hback c hc
    | some d =>
      rw [hhead] at hc
      exact hend c (hhead.trans hc)
  | parenthesized hstring hline => exact .parenthesized hstring hline

theorem Reads.of_append (h : Reads form location (following ++ back)) :
    Reads form location following := by
  cases h with
  | severe hseverity hblanks hstring hline hend =>
    refine .severe hseverity hblanks hstring hline fun c hc => hend c ?_
    rw [List.head?_append, Option.mem_def.mp hc]
    rfl
  | parenthesized hstring hline => exact .parenthesized hstring hline

/-- A location stays one where no digit is added behind it. -/
theorem find?_append {cs : List Char} (h : form.find? cs = some location)
    (hback : ∀ c ∈ back.head?, ¬ Text.isDecimalDigit c) :
    form.find? (cs ++ back) = some location := by
  obtain ⟨following, rfl, hreads⟩ := find?_eq_some_iff.mp h
  exact find?_eq_some_iff.mpr ⟨following ++ back, List.append_assoc _ _ _, hreads.append hback⟩

/-- A location in parentheses has one closing parenthesis, at its end. -/
theorem Reads.parenthesis_not_mem (h : Reads .parenthesized location following)
    (hsplit : location.written = front ++ back) (hne : back ≠ []) : ')' ∉ front := by
  obtain ⟨back, c, rfl⟩ := (List.eq_nil_or_concat back).resolve_left hne
  cases h with
  | @parenthesized string line _ hstring hline =>
    rw [List.concat_eq_append, ← List.append_assoc] at hsplit
    obtain ⟨hfront, _⟩ := List.append_inj' hsplit rfl
    have hnumber : ∀ digits, IsNumber digits → ')' ∉ digits :=
      fun digits hdigits hmem => absurd (hdigits.2 _ hmem) (by decide)
    have hwritten : ')' ∉ string ++ '(' :: line := by
      simp [hnumber string hstring, hnumber line hline]
    rw [hfront] at hwritten
    exact fun hmem => hwritten (List.mem_append_left _ hmem)

end Extending

namespace Cut

variable {sought : Form → Location → Bool} {start : Bool} {cs front back : List Char}
  {pieces : List Piece}

/-- A text is divided between two pieces or within a location. -/
theorem divide (h : Cut sought start cs pieces) (htext : cs = front ++ back) :
    (∃ earlier later, pieces = earlier ++ later ∧ earlier.flatMap Piece.written = front ∧
        Cut sought (startsLine start front) back later) ∨
      ∃ before form location following head tail, startsLine start before ∧
        Reads form location following ∧ sought form location ∧ head ≠ [] ∧ tail ≠ [] ∧
        location.written = head ++ tail ∧ front = before ++ head ∧ back = tail ++ following := by
  induction h generalizing front with
  | done =>
    obtain ⟨rfl, rfl⟩ := List.append_eq_nil_iff.mp htext.symm
    exact .inl ⟨[], [], rfl, rfl, .done⟩
  | @char start c cs pieces hnone hrest ih =>
    cases front with
    | nil =>
      rw [List.nil_append] at htext
      exact .inl ⟨[], _, rfl, rfl, htext ▸ .char hnone hrest⟩
    | cons d front =>
      obtain ⟨rfl, hcs⟩ := List.cons.inj htext
      rcases ih hcs with ⟨earlier, later, rfl, rfl, hlater⟩ |
        ⟨before, form, location, following, head, tail, hstarts, hfound⟩
      · refine .inl ⟨.char c :: earlier, later, rfl, rfl, ?_⟩
        rwa [startsLine_cons]
      · obtain ⟨hreads, hsought, hhead, htail, hwritten, rfl, rfl⟩ := hfound
        refine .inr ⟨c :: before, form, location, following, head, tail, ?_, hreads, hsought, hhead,
          htail, hwritten, rfl, rfl⟩
        rwa [startsLine_cons]
  | @location form location cs pieces hreads hsought hrest ih =>
    rcases List.append_eq_append_iff.mp htext with ⟨front', rfl, hcs⟩ | ⟨inside, hsplit, rfl⟩
    · have hstart : startsLine true (location.written ++ front') = startsLine false front' := by
        rw [startsLine_append, hreads.startsLine_written]
      rcases ih hcs with ⟨earlier, later, rfl, rfl, hlater⟩ |
        ⟨before, form', location', following, head, tail, hstarts, hfound⟩
      · exact .inl ⟨.location form location :: earlier, later, rfl, rfl, hstart ▸ hlater⟩
      · obtain ⟨hreads', hsought', hhead, htail, hwritten, rfl, rfl⟩ := hfound
        refine .inr ⟨location.written ++ before, form', location', following, head, tail, ?_,
          hreads', hsought', hhead, htail, hwritten, by rw [List.append_assoc], rfl⟩
        rwa [startsLine_append, hreads.startsLine_written]
    · by_cases hfront : front = []
      · subst hfront
        rw [List.nil_append] at hsplit
        subst hsplit
        exact .inl ⟨[], _, rfl, rfl, .location hreads hsought hrest⟩
      · by_cases hinside : inside = []
        · subst hinside
          rw [List.append_nil] at hsplit
          subst hsplit
          refine .inl ⟨[.location form location], pieces, rfl, List.append_nil _, ?_⟩
          rw [hreads.startsLine_written]
          exact hrest
        · exact .inr ⟨[], form, location, cs, front, inside, rfl, hreads, hsought, hfront, hinside,
            hsplit, rfl, rfl⟩

/-- A newline is a piece of its own where a location does not run over it. -/
theorem exists_of_newline (h : Cut sought start ('\n' :: cs) pieces) :
    ∃ later, pieces = .char '\n' :: later ∧ Cut sought true cs later := by
  generalize htext : '\n' :: cs = text at h
  cases h with
  | done => cases htext
  | char _ hrest =>
    cases htext
    exact ⟨_, rfl, hrest⟩
  | location hreads =>
    obtain ⟨c, text, hwritten, hbegins⟩ := hreads.exists_begins
    rw [hwritten] at htext
    cases htext
    exact absurd (by decide) hbegins.not_isBlank

/-- The part of a log in front of anything but a digit is cut as it is within the log. -/
theorem take {earlier later : List Piece} (h : Cut sought start cs (earlier ++ later))
    (htext : cs = earlier.flatMap Piece.written ++ back)
    (hback : ∀ c ∈ back.head?, ¬ Text.isDecimalDigit c) :
    Cut sought start (earlier.flatMap Piece.written) earlier := by
  induction earlier generalizing start cs with
  | nil => exact .done
  | cons piece earlier ih =>
    cases h with
    | @char _ c cs _ hnone hrest =>
      have hcs : cs = earlier.flatMap Piece.written ++ back := (List.cons.inj htext).2
      refine .char (fun hstart form location hfind => ?_) (ih hrest hcs)
      have hlonger := find?_append hfind hback
      exact hnone hstart form location (by rw [hcs]; exact hlonger)
    | @location form location cs _ hreads hsought hrest =>
      have hcs : cs = earlier.flatMap Piece.written ++ back := by
        rw [List.flatMap_cons, List.append_assoc] at htext
        exact List.append_cancel_left htext
      rw [hcs] at hreads
      exact .location hreads.of_append hsought (ih hrest hcs)

end Cut

section Newlines

variable {flat : FlatText} {form : Form} {start : Bool} {a b cs text : List Char}

/-- Whether a location that is replaced runs over the newline between two texts. -/
def RunsOver (flat : FlatText) (form : Form) (a b : List Char) : Prop :=
  ∃ before location following head tail, Occurs (a ++ '\n' :: b) before form location following ∧
    (place? flat location.line).isSome ∧ location.written = head ++ '\n' :: tail ∧
    a = before ++ head

theorem not_runsOver_parenthesized (flat : FlatText) (a b : List Char) :
    ¬ RunsOver flat .parenthesized a b := by
  rintro ⟨before, location, following, head, tail, hoccurs, _, hwritten, _⟩
  have hparenthesis := hoccurs.reads.mem_written (c := '\n') (by decide) (by simp [hwritten])
  exact absurd hparenthesis (by decide)

/-- A pass works line by line where nothing that it replaces runs over the end of a line. -/
theorem relocateFrom_append_newline (h : ¬ RunsOver flat form a b) :
    relocateFrom flat form.find? (a ++ '\n' :: b) true 0 =
      relocateFrom flat form.find? a true 0 ++ '\n' :: relocateFrom flat form.find? b true 0 := by
  obtain ⟨pieces, hcut⟩ := Cut.exists_cut (replaces flat form) true (a ++ '\n' :: b)
  rcases hcut.divide rfl with ⟨earlier, later, rfl, rfl, hlater⟩ |
    ⟨before, form', location, following, head, tail, hstarts, hfound⟩
  · have hnewline : ¬ Text.isDecimalDigit '\n' := by decide
    have hearlier := hcut.take rfl (by simpa using hnewline)
    obtain ⟨later, rfl, hrest⟩ := hlater.exists_of_newline
    rw [hcut.relocateFrom_eq, hearlier.relocateFrom_eq, hrest.relocateFrom_eq, List.flatMap_append]
    rfl
  · obtain ⟨hreads, hsought, _, htail, hwritten, rfl, hback⟩ := hfound
    obtain ⟨rfl, hplace⟩ := replaces_iff.mp hsought
    cases tail with
    | nil => exact absurd rfl htail
    | cons c tail =>
      obtain ⟨rfl, rfl⟩ := List.cons.inj hback
      refine absurd ⟨before, location, following, head, tail, ⟨?_, ?_, hreads⟩, hplace, hwritten,
        rfl⟩ h
      · rw [hwritten]
        simp
      · exact (startsLine_iff before).mp hstarts

/-- A pass leaves a text alone in which it finds nothing. -/
theorem relocateFrom_append_of_find?_eq_none
    (hquiet : ∀ front back, text = front ++ back → back ≠ [] → startsLine start front →
      form.find? (back ++ cs) = none) :
    relocateFrom flat form.find? (text ++ cs) start 0 =
      text ++ relocateFrom flat form.find? cs (startsLine start text) 0 := by
  obtain ⟨pieces, hrest⟩ := Cut.exists_cut (replaces flat form) (startsLine start text) cs
  have hcut : Cut (replaces flat form) start (text ++ cs) (text.map .char ++ pieces) := by
    refine .verbatim (fun front back hsplit hne hfront other location hfind hsought => ?_) hrest
    obtain ⟨rfl, _⟩ := replaces_iff.mp hsought
    rw [hquiet front back hsplit hne hfront] at hfind
    cases hfind
  rw [hcut.relocateFrom_eq, hrest.relocateFrom_eq, List.flatMap_append,
    Piece.flatMap_map_char fun _ => rfl]

/-- A text with a closing parenthesis at its end keeps it in the second pass, and what follows it is
relocated on its own. -/
theorem exists_relocateFrom_append (flat : FlatText) (text cs : List Char) :
    ∃ front, relocateFrom flat Form.parenthesized.find? (text ++ [')'] ++ cs) true 0 =
      front ++ [')'] ++ relocateFrom flat Form.parenthesized.find? cs false 0 := by
  obtain ⟨pieces, hcut⟩ :=
    Cut.exists_cut (replaces flat .parenthesized) true (text ++ [')'] ++ cs)
  rcases hcut.divide rfl with ⟨earlier, later, rfl, hearlier, hlater⟩ |
    ⟨before, form, location, following, head, tail, hstarts, hfound⟩
  · have hend : startsLine true (text ++ [')']) = false := startsLine_append true text [')']
    rw [hend] at hlater
    rw [hcut.relocateFrom_eq, hlater.relocateFrom_eq, List.flatMap_append]
    rcases List.eq_nil_or_concat earlier with rfl | ⟨earlier, piece, rfl⟩
    · simp at hearlier
    · rw [List.concat_eq_append, List.flatMap_append, List.flatMap_singleton] at hearlier
      cases piece with
      | char c =>
        obtain ⟨_, hlast⟩ := List.append_inj' hearlier rfl
        cases hlast
        exact ⟨earlier.flatMap (Piece.relocated flat), by simp [Piece.relocated]⟩
      | location form location =>
        have hpieces : earlier.concat (.location form location) ++ later =
            earlier ++ .location form location :: later := by simp
        obtain ⟨_, _, _, hsought⟩ := hcut.occurs_iff.mpr ⟨earlier, later, hpieces, rfl, rfl⟩
        obtain ⟨rfl, hplace⟩ := replaces_iff.mp hsought
        obtain ⟨place, hplace⟩ := Option.isSome_iff_exists.mp hplace
        obtain ⟨front, hend⟩ := exists_eq_of_place? hplace
        refine ⟨earlier.flatMap (Piece.relocated flat) ++ location.label ++ front, ?_⟩
        simp [Piece.relocated, hplace, hend]
  · obtain ⟨hreads, hsought, hhead, htail, hwritten, hfront, _⟩ := hfound
    obtain ⟨rfl, _⟩ := replaces_iff.mp hsought
    obtain ⟨head, c, rfl⟩ := (List.eq_nil_or_concat head).resolve_left hhead
    rw [List.concat_eq_append] at hwritten hfront
    rw [← List.append_assoc] at hfront
    obtain ⟨_, hlast⟩ := List.append_inj' hfront rfl
    cases hlast
    exact absurd (by simp) (hreads.parenthesis_not_mem hwritten htail)

section Parts

variable {location : Location} {head tail following : List Char}

/-- A pass replaces a location of its form at the beginning of a text. -/
theorem Reads.relocateFrom_written {place : String} (h : Reads form location following)
    (hplace : place? flat location.line = some place) :
    relocateFrom flat form.find? (location.written ++ following) true 0 =
      location.label ++ place.toList ++ relocateFrom flat form.find? following false 0 := by
  obtain ⟨pieces, hrest⟩ := Cut.exists_cut (replaces flat form) false following
  have hcut := hrest.location h (replaces_iff.mpr ⟨rfl, by simp [hplace]⟩)
  rw [hcut.relocateFrom_eq, hrest.relocateFrom_eq, List.flatMap_cons, Piece.relocated, hplace]

/-- Nothing is found in a part of a location in front of a newline. -/
theorem Reads.find?_eq_none_of_newline {front back : List Char} (h : Reads .severe location following)
    (hwritten : location.written = front ++ back ++ '\n' :: tail) (hfront : startsLine true front) :
    Form.severe.find? back = none := by
  have hnewline : ¬ Text.isDecimalDigit '\n' := by decide
  rw [Option.eq_none_iff_forall_ne_some]
  intro other hother
  have hlonger : Form.severe.find? (back ++ '\n' :: (tail ++ following)) = some other :=
    find?_append hother (by simpa using hnewline)
  cases front with
  | nil =>
    obtain ⟨behind, rfl, hreads⟩ := find?_eq_some_iff.mp hother
    obtain ⟨following', htext, hreads'⟩ := find?_eq_some_iff.mp hlonger
    obtain ⟨_, rfl⟩ := h.unique hreads' (by rw [← htext, hwritten]; simp)
    have hlength := congrArg List.length hwritten
    simp only [List.length_append, List.length_cons, List.length_nil] at hlength
    omega
  | cons c front =>
    rw [List.append_assoc] at hwritten
    have hnone := h.find?_eq_none_of_startsLine hwritten hfront (List.cons_ne_nil _ _) .severe
      following
    rw [List.append_assoc, List.cons_append, hlonger] at hnone
    cases hnone

/-- The first pass finds nothing in the part of a location in front of a newline. -/
theorem Reads.relocateFrom_head (h : Reads .severe location following)
    (hwritten : location.written = head ++ '\n' :: tail) :
    relocateFrom flat Form.severe.find? head true 0 = head := by
  have hhead : relocateFrom flat Form.severe.find? (head ++ []) true 0 = head ++ [] :=
    relocateFrom_append_of_find?_eq_none fun front back hfront _ hstarts => by
      rw [List.append_nil]
      exact h.find?_eq_none_of_newline (hfront ▸ hwritten) hstarts
  rwa [List.append_nil] at hhead

/-- Nor is the part behind it. -/
theorem Reads.relocateFrom_tail (h : Reads .severe location following)
    (hwritten : location.written = head ++ '\n' :: tail) :
    relocateFrom flat Form.severe.find? (tail ++ following) true 0 =
      tail ++ relocateFrom flat Form.severe.find? following false 0 := by
  have hend : startsLine true tail = false := by
    have hend := h.startsLine_written true
    rwa [hwritten, startsLine_append, startsLine_cons] at hend
  rw [← hend]
  refine relocateFrom_append_of_find?_eq_none fun front back hback _ hstarts => ?_
  have hsplit : location.written = (head ++ '\n' :: front) ++ back := by simp [hwritten, hback]
  have hnewline : startsLine true (head ++ '\n' :: front) := by
    rwa [startsLine_append, startsLine_cons]
  exact h.find?_eq_none_of_startsLine hsplit hnewline (by simp) .severe following

/-- The second pass leaves a location with a severity alone. -/
theorem Reads.relocateFrom_parenthesized (h : Reads .severe location following) (rest : List Char) :
    relocateFrom flat Form.parenthesized.find? (location.written ++ rest) true 0 =
      location.written ++ relocateFrom flat Form.parenthesized.find? rest false 0 := by
  rw [← h.startsLine_written true]
  refine relocateFrom_append_of_find?_eq_none fun front back hsplit _ hstarts => ?_
  cases front with
  | nil =>
    obtain ⟨c, cs, hwritten, hbegins⟩ := h.exists_begins
    rw [← hsplit.trans (List.nil_append _), hwritten]
    exact find?_eq_none_of_begins hbegins (by decide) _
  | cons c front =>
    exact h.find?_eq_none_of_startsLine hsplit hstarts (List.cons_ne_nil _ _) .parenthesized rest

end Parts

/-- Both passes over the characters of a log. -/
def relocateChars (flat : FlatText) (cs : List Char) : List Char :=
  relocateFrom flat Form.parenthesized.find?
    (relocateFrom flat Form.severe.find? cs true 0) true 0

theorem toList_relocate (flat : FlatText) (log : String) :
    (relocate flat log).toList = relocateChars flat log.toList := by
  simp [relocate, relocateForm, relocateChars, Form.find?]

theorem relocateChars_append_newline (h : ¬ RunsOver flat .severe a b) :
    relocateChars flat (a ++ '\n' :: b) =
      relocateChars flat a ++ '\n' :: relocateChars flat b := by
  rw [relocateChars, relocateFrom_append_newline h,
    relocateFrom_append_newline (not_runsOver_parenthesized flat _ _)]
  rfl

/-- No location runs over into another one. -/
theorem Reads.not_runsOver {location : Location} {following : List Char}
    (h : Reads .severe location following) (hb : b <+: location.written ++ following) :
    ¬ RunsOver flat .severe a b := by
  rintro ⟨before, other, following', head, tail, hoccurs, _, hwritten, rfl⟩
  obtain rfl : b = tail ++ following' := by simpa [hwritten] using hoccurs.text_eq
  obtain ⟨rest, htext⟩ := hb
  have hsplit : other.written = (head ++ ['\n']) ++ tail := by simp [hwritten]
  have hnone := hoccurs.reads.find?_eq_none hsplit (by simp) .severe (following' ++ rest)
  rw [← List.append_assoc, find?_eq_some_iff.mpr ⟨following, htext, h⟩] at hnone
  cases hnone

/-- A log that begins with a location that is replaced loses the newline in that location. -/
theorem Reads.relocateChars_ne {location : Location} {head tail following : List Char}
    (h : Reads .severe location following) (hplace : (place? flat location.line).isSome)
    (hwritten : location.written = head ++ '\n' :: tail) :
    relocateChars flat (head ++ '\n' :: tail ++ following) ≠
      relocateChars flat head ++ '\n' :: relocateChars flat (tail ++ following) := by
  intro hequal
  obtain ⟨place, hplace⟩ := Option.isSome_iff_exists.mp hplace
  have hwhole : head ++ '\n' :: tail ++ following = location.written ++ following := by
    rw [hwritten]
  rw [hwhole, relocateChars, relocateChars, relocateChars, h.relocateFrom_written hplace,
    h.relocateFrom_head hwritten, h.relocateFrom_tail hwritten,
    ← relocateFrom_append_newline (not_runsOver_parenthesized flat _ _)] at hequal
  generalize relocateFrom flat Form.severe.find? following false 0 = rest at hequal
  -- A parenthesis ends the place on the one side, and a digit the location on the other.
  obtain ⟨place, hplace⟩ := exists_eq_of_place? hplace
  obtain ⟨front, hfront⟩ := exists_relocateFrom_append flat (location.label ++ place) rest
  have hkept : head ++ '\n' :: (tail ++ rest) = location.written ++ rest := by simp [hwritten]
  rw [hplace, ← List.append_assoc, hfront, hkept, h.relocateFrom_parenthesized] at hequal
  obtain ⟨digits, c, hdigits, hends⟩ := h.exists_ends
  rw [hdigits] at hequal
  obtain ⟨_, hlast⟩ := List.append_inj' (List.append_cancel_right hequal) rfl
  cases hlast
  have hdigit : Text.isDecimalDigit ')' := hends
  exact absurd hdigit (by decide)

end Newlines

/-- A log is relocated line by line except where a location runs over the end of a line. -/
theorem relocate_append_newline_iff (flat : FlatText) (a b : String) :
    relocate flat (a ++ "\n" ++ b) = relocate flat a ++ "\n" ++ relocate flat b ↔
      ¬ RunsOver flat .severe a.toList b.toList := by
  rw [← String.toList_inj]
  simp only [String.toList_append, toList_relocate]
  have hnewline : "\n".toList = ['\n'] := rfl
  rw [hnewline, List.append_assoc, List.append_assoc, List.singleton_append, List.singleton_append]
  refine ⟨?_, relocateChars_append_newline⟩
  rintro hequal ⟨before, location, following, head, tail, hoccurs, hplace, hwritten, ha⟩
  have hb : b.toList = tail ++ following := by simpa [ha, hwritten] using hoccurs.text_eq
  have hne := hoccurs.reads.relocateChars_ne hplace hwritten
  rw [ha, hb] at hequal
  rcases hoccurs.starts with rfl | hnewline
  · exact hne (by simpa using hequal)
  · -- What stands in front of the location is relocated alike on both sides.
    obtain ⟨front, rfl⟩ := List.getLast?_eq_some_iff.mp hnewline
    have hleft : relocateChars flat (front ++ '\n' :: (head ++ '\n' :: tail ++ following)) =
        relocateChars flat front ++ '\n' :: relocateChars flat (head ++ '\n' :: tail ++ following) :=
      relocateChars_append_newline (hoccurs.reads.not_runsOver ⟨[], by simp [hwritten]⟩)
    have hright : relocateChars flat (front ++ '\n' :: head) =
        relocateChars flat front ++ '\n' :: relocateChars flat head :=
      relocateChars_append_newline
        (hoccurs.reads.not_runsOver ⟨'\n' :: tail ++ following, by simp [hwritten]⟩)
    have hsame := calc
      relocateChars flat front ++ '\n' :: relocateChars flat (head ++ '\n' :: tail ++ following)
      _ = relocateChars flat (front ++ '\n' :: head) ++
          '\n' :: relocateChars flat (tail ++ following) := by
        rw [← hleft]
        simpa using hequal
      _ = relocateChars flat front ++ '\n' :: (relocateChars flat head ++
          '\n' :: relocateChars flat (tail ++ following)) := by
        rw [hright, List.append_assoc, List.cons_append]
    exact hne (List.cons.inj (List.append_cancel_left hsame)).2

/-- A severity that ends a line, and the numbers in the next line, are taken for one location. -/
theorem not_relocate_append_newline :
    ¬ ∀ (flat : FlatText) (a b : String),
      relocate flat (a ++ "\n" ++ b) = relocate flat a ++ "\n" ++ relocate flat b := by
  intro h
  have hmerged := h ⟨"x\n", [.source ⟨"f"⟩ 7]⟩ "ERROR:" "0:1"
  revert hmerged
  decide +kernel

end Log

end ShaderInline
