import ShaderInline.Proofs.LogLocations

/-!
# Logs in pieces

A log is cut into locations and the characters around them. No location begins within another one,
so the pieces hold every location of the kinds that are looked for, and a pass over the log does no
more than replace some of the pieces.
-/
namespace ShaderInline

namespace Log

/-- Whether what follows a text is at the beginning of a line. `start` tells whether the text itself
is. -/
def startsLine (start : Bool) (before : List Char) : Bool :=
  match before.getLast? with
  | none => start
  | some c => c = '\n'

theorem startsLine_append (start : Bool) (front back : List Char) :
    startsLine start (front ++ back) = startsLine (startsLine start front) back := by
  rw [startsLine, List.getLast?_append, startsLine]
  cases back.getLast? <;> rfl

theorem startsLine_cons (start : Bool) (c : Char) (cs : List Char) :
    startsLine start (c :: cs) = startsLine (c = '\n') cs :=
  startsLine_append start [c] cs

theorem Reads.startsLine_written {form : Form} {location : Location} {following : List Char}
    (h : Reads form location following) (start : Bool) :
    startsLine start location.written = false := by
  obtain ⟨cs, c, hwritten, hends⟩ := h.exists_ends
  rw [hwritten, startsLine_append, startsLine_cons, decide_eq_false hends.ne_newline]
  rfl

theorem getLast?_of_startsLine {start : Bool} {before : List Char} (h : startsLine start before)
    (hne : before ≠ []) : before.getLast? = some '\n' := by
  obtain ⟨cs, c, rfl⟩ := (List.eq_nil_or_concat before).resolve_left hne
  rw [List.concat_eq_append, startsLine_append, startsLine_cons] at h
  rw [List.concat_eq_append, List.getLast?_concat]
  simpa [startsLine] using h

/-- No location begins within another one, at the beginning of a line. -/
theorem Reads.find?_eq_none_of_startsLine {form : Form} {location : Location}
    {front back following : List Char} {start : Bool} (h : Reads form location following)
    (hsplit : location.written = front ++ back) (hstarts : startsLine start front)
    (hne : front ≠ []) (form' : Form) (rest : List Char) : form'.find? (back ++ rest) = none :=
  h.find?_eq_none hsplit (getLast?_of_startsLine hstarts hne) form' rest

inductive Piece where
  | char (c : Char)
  | location (form : Form) (location : Location)

namespace Piece

def written : Piece → List Char
  | char c => [c]
  | location _ found => found.written

/-- A piece with its location replaced, if that is on a line that was copied from a file. -/
def relocated (flat : FlatText) : Piece → List Char
  | char c => [c]
  | location _ found =>
    match place? flat found.line with
    | some place => found.label ++ place.toList
    | none => found.written

/-- A piece with a location of another kind taken apart. -/
def keep (kept : Form → Location → Bool) : Piece → List Piece
  | char c => [char c]
  | location form found =>
    if kept form found then [location form found] else found.written.map char

/-- Pieces of one character each come to the text that they are made of. -/
theorem flatMap_map_char {f : Piece → List Char} (hf : ∀ c, f (char c) = [c]) (cs : List Char) :
    (cs.map char).flatMap f = cs := by
  rw [List.flatMap_map, funext hf]
  exact List.flatMap_singleton' cs

end Piece

/-- `Cut sought start cs pieces`: the text is made of the pieces, and the sought ones of its
locations are those among the pieces. `start` tells whether the text is at the beginning of a
line. -/
inductive Cut (sought : Form → Location → Bool) : Bool → List Char → List Piece → Prop where
  | done {start : Bool} : Cut sought start [] []
  | char {start : Bool} {c : Char} {cs : List Char} {pieces : List Piece}
      (hnone : start → ∀ form location, form.find? (c :: cs) = some location →
        ¬ sought form location)
      (hrest : Cut sought (c = '\n') cs pieces) : Cut sought start (c :: cs) (.char c :: pieces)
  | location {form : Form} {location : Location} {cs : List Char} {pieces : List Piece}
      (hreads : Reads form location cs) (hsought : sought form location)
      (hrest : Cut sought false cs pieces) :
      Cut sought true (location.written ++ cs) (.location form location :: pieces)

namespace Cut

variable {sought kept : Form → Location → Bool} {start : Bool} {cs : List Char}
  {pieces : List Piece}

theorem written_eq (h : Cut sought start cs pieces) : pieces.flatMap Piece.written = cs := by
  induction h with
  | done => rfl
  | char _ _ ih => rw [List.flatMap_cons, ih]; rfl
  | location _ _ _ ih => rw [List.flatMap_cons, ih]; rfl

/-- A text in which nothing is found goes into pieces of one character each. -/
theorem verbatim {text : List Char}
    (hquiet : ∀ front back, text = front ++ back → back ≠ [] → startsLine start front →
      ∀ form location, form.find? (back ++ cs) = some location → ¬ sought form location)
    (hrest : Cut sought (startsLine start text) cs pieces) :
    Cut sought start (text ++ cs) (text.map .char ++ pieces) := by
  induction text generalizing start with
  | nil => exact hrest
  | cons c text ih =>
    rw [startsLine_cons] at hrest
    refine .char (fun hstart => hquiet [] (c :: text) rfl (List.cons_ne_nil _ _) hstart)
      (ih (fun front back hsplit hne hfront => ?_) hrest)
    refine hquiet (c :: front) back (congrArg (c :: ·) hsplit) hne ?_
    rwa [startsLine_cons]

/-- Every text can be cut. -/
theorem exists_cut (sought : Form → Location → Bool) (start : Bool) (cs : List Char) :
    ∃ pieces, Cut sought start cs pieces := by
  induction hlength : cs.length using Nat.strong_induction_on generalizing start cs with
  | _ length ih =>
    cases cs with
    | nil => exact ⟨[], .done⟩
    | cons c cs =>
      by_cases h : start ∧ ∃ form location, form.find? (c :: cs) = some location ∧
          sought form location
      · obtain ⟨rfl, form, location, hfind, hsought⟩ := h
        obtain ⟨following, htext, hreads⟩ := find?_eq_some_iff.mp hfind
        have hshorter : following.length < length := by
          have := List.length_pos_iff.mpr hreads.written_ne_nil
          rw [← hlength, htext, List.length_append]
          omega
        obtain ⟨pieces, hrest⟩ := ih _ hshorter false following rfl
        rw [htext]
        exact ⟨_, .location hreads hsought hrest⟩
      · obtain ⟨pieces, hrest⟩ := ih cs.length (by simp [← hlength]) (c = '\n') cs rfl
        exact ⟨_, .char (fun hstart form location hfind hsought =>
          h ⟨hstart, form, location, hfind, hsought⟩) hrest⟩

/-- What is no longer looked for goes into pieces of one character each. -/
theorem restrict (h : Cut sought start cs pieces)
    (hkept : ∀ form location, kept form location → sought form location) :
    Cut kept start cs (pieces.flatMap (Piece.keep kept)) := by
  induction h with
  | done => exact .done
  | char hnone _ ih =>
    exact .char (fun hstart form location hfind hmem =>
      hnone hstart form location hfind (hkept form location hmem)) ih
  | @location form location cs pieces hreads hsought hrest ih =>
    rw [List.flatMap_cons, Piece.keep]
    split
    case isTrue hmem => exact .location hreads hmem ih
    case isFalse hother =>
      refine verbatim (fun front back hsplit _ hfront other location' hfind hmem => ?_) ?_
      · cases front with
        | nil =>
          obtain ⟨following, htext, hreads'⟩ := find?_eq_some_iff.mp hfind
          rw [List.nil_append] at hsplit
          rw [← hsplit] at htext
          obtain ⟨rfl, rfl⟩ := hreads.unique hreads' htext
          exact hother hmem
        | cons c front =>
          rw [hreads.find?_eq_none_of_startsLine hsplit hfront (List.cons_ne_nil _ _)] at hfind
          cases hfind
      · rw [hreads.startsLine_written]
        exact ih

/-- The locations of the pieces are those of the text, each at its place. -/
theorem occurs_iff {before following : List Char} {form : Form} {location : Location}
    (h : Cut sought start cs pieces) :
    (cs = before ++ (location.written ++ following) ∧ startsLine start before ∧
        Reads form location following ∧ sought form location) ↔
      ∃ earlier later, pieces = earlier ++ .location form location :: later ∧
        earlier.flatMap Piece.written = before ∧ later.flatMap Piece.written = following := by
  induction h generalizing before with
  | done =>
    constructor
    · rintro ⟨htext, _, hreads, _⟩
      have hempty := (List.append_eq_nil_iff.mp htext.symm).2
      exact absurd (List.append_eq_nil_iff.mp hempty).1 hreads.written_ne_nil
    · rintro ⟨earlier, later, hpieces, _⟩
      simp at hpieces
  | @char start c cs pieces hnone hrest ih =>
    constructor
    · rintro ⟨htext, hstarts, hreads, hsought⟩
      cases before with
      | nil =>
        have hfind := find?_eq_some_iff.mpr ⟨following, htext, hreads⟩
        exact absurd hsought (hnone hstarts form location hfind)
      | cons d before =>
        obtain ⟨rfl, hcs⟩ := List.cons.inj htext
        rw [startsLine_cons] at hstarts
        obtain ⟨earlier, later, rfl, rfl, rfl⟩ := ih.mp ⟨hcs, hstarts, hreads, hsought⟩
        exact ⟨.char c :: earlier, later, rfl, rfl, rfl⟩
    · rintro ⟨earlier, later, hpieces, rfl, rfl⟩
      cases earlier with
      | nil => cases hpieces
      | cons piece earlier =>
        obtain ⟨rfl, rfl⟩ := List.cons.inj hpieces
        obtain ⟨htext, hstarts, hfound⟩ := ih.mpr ⟨earlier, later, rfl, rfl, rfl⟩
        refine ⟨congrArg (c :: ·) htext, ?_, hfound⟩
        exact (startsLine_cons _ _ _).trans hstarts
  | @location other first cs pieces hfirst hkept hrest ih =>
    constructor
    · rintro ⟨htext, hstarts, hreads, hsought⟩
      rcases List.append_eq_append_iff.mp htext with ⟨before', rfl, hcs⟩ | ⟨inside, hsplit, hcs⟩
      · rw [startsLine_append, hfirst.startsLine_written] at hstarts
        obtain ⟨earlier, later, rfl, rfl, rfl⟩ := ih.mp ⟨hcs, hstarts, hreads, hsought⟩
        exact ⟨.location other first :: earlier, later, rfl, rfl, rfl⟩
      · cases before with
        | nil =>
          obtain ⟨rfl, rfl⟩ := hfirst.unique hreads htext
          exact ⟨[], pieces, rfl, rfl, hrest.written_eq.trans (List.append_cancel_left htext)⟩
        | cons d before =>
          have hfind := find?_eq_some_iff.mpr ⟨following, hcs.symm, hreads⟩
          rw [hfirst.find?_eq_none_of_startsLine hsplit hstarts (List.cons_ne_nil _ _)] at hfind
          cases hfind
    · rintro ⟨earlier, later, hpieces, rfl, rfl⟩
      cases earlier with
      | nil =>
        cases hpieces
        rw [hrest.written_eq]
        exact ⟨rfl, rfl, hfirst, hkept⟩
      | cons piece earlier =>
        obtain ⟨rfl, rfl⟩ := List.cons.inj hpieces
        obtain ⟨htext, hstarts, hfound⟩ := ih.mpr ⟨earlier, later, rfl, rfl, rfl⟩
        refine ⟨?_, ?_, hfound⟩
        · rw [htext, List.flatMap_cons, List.append_assoc]
          rfl
        · rw [List.flatMap_cons, startsLine_append]
          exact (congrArg (startsLine · _) (hfirst.startsLine_written true)).trans hstarts

end Cut

section Relocation

variable {flat : FlatText} {form : Form} {start : Bool} {cs : List Char} {pieces : List Piece}

/-- The locations that a pass replaces. -/
def replaces (flat : FlatText) (form : Form) (other : Form) (location : Location) : Bool :=
  other = form && (place? flat location.line).isSome

theorem replaces_iff {other : Form} {location : Location} :
    replaces flat form other location ↔ other = form ∧ (place? flat location.line).isSome := by
  simp [replaces]

theorem relocateFrom_append (flat : FlatText) (find : List Char → Option Location)
    (text cs : List Char) :
    relocateFrom flat find (text ++ cs) false text.length = relocateFrom flat find cs false 0 := by
  induction text with
  | nil => rfl
  | cons c text ih => exact ih

/-- A pass replaces the locations among the pieces of a log. -/
theorem Cut.relocateFrom_eq (h : Cut (replaces flat form) start cs pieces) :
    relocateFrom flat form.find? cs start 0 = pieces.flatMap (Piece.relocated flat) := by
  induction h with
  | done => rfl
  | @char start c cs pieces hnone _ ih =>
    have hkept : (if start then replacement? flat form.find? (c :: cs) else none) = none := by
      split
      case isFalse => rfl
      case isTrue hstart =>
        rw [replacement?, Option.eq_none_iff_forall_ne_some]
        intro new hnew
        obtain ⟨location, hfind, hnew⟩ := Option.bind_eq_some_iff.mp hnew
        obtain ⟨place, hplace, _⟩ := Option.bind_eq_some_iff.mp hnew
        exact hnone hstart form location hfind (replaces_iff.mpr ⟨rfl, by simp [hplace]⟩)
    rw [relocateFrom, hkept, ih]
    rfl
  | @location other location cs pieces hreads hsought _ ih =>
    obtain ⟨rfl, hmapped⟩ := replaces_iff.mp hsought
    obtain ⟨place, hplace⟩ := Option.isSome_iff_exists.mp hmapped
    obtain ⟨c, text, hwritten, _⟩ := hreads.exists_begins
    have hfind := find?_eq_some_iff.mpr ⟨cs, rfl, hreads⟩
    have hnew : replacement? flat other.find? (location.written ++ cs) =
        some (location.label ++ place.toList, location.written.length) := by
      simp [replacement?, hfind, hplace]
    rw [List.flatMap_cons, Piece.relocated, hplace, ← ih]
    rw [hwritten, List.cons_append] at hnew ⊢
    rw [relocateFrom, if_pos rfl, hnew]
    exact congrArg _ (relocateFrom_append flat _ text cs)

end Relocation

end Log

end ShaderInline
