import ShaderInline.Proofs.LogPieces

/-!
# Two passes over a log

Locations with a severity are replaced first, and those in parentheses in what that has left. As long
as no file is named with a newline, the first pass neither makes nor spoils a location in
parentheses, so both passes together replace the pieces of the log at once.
-/
namespace ShaderInline

/-- Whether no file that a line was copied from is named with a newline. -/
def FlatText.HasPlainNames (flat : FlatText) : Prop :=
  ∀ file line, .source file line ∈ flat.origins → '\n' ∉ file.text.toList

namespace Log

theorem newline_not_mem_place {flat : FlatText} {digits : List Char} {place : String}
    (h : place? flat digits = some place) (hnames : flat.HasPlainNames) :
    '\n' ∉ place.toList := by
  obtain ⟨number, file, line, _, _, horigin, rfl⟩ := place?_eq_some_iff.mp h
  have hfile : '\n' ∉ file.text.toList := by
    cases number with
    | zero => cases horigin
    | succ index => exact hnames file line (List.mem_of_getElem? horigin)
  have hline : '\n' ∉ Nat.toDigits 10 line := fun hmem =>
    absurd (Nat.isDigit_of_mem_toDigits (by decide) (by decide) hmem) (by decide)
  simp [hfile, hline]

namespace Piece

variable {flat : FlatText}

/-- A piece after the first pass. -/
def halfway (flat : FlatText) : Piece → List Char
  | location .parenthesized found => found.written
  | piece => piece.relocated flat

/-- What is found in a piece after the first pass. -/
def respelled (flat : FlatText) : Piece → List Piece
  | location .parenthesized found => [location .parenthesized found]
  | piece => (piece.relocated flat).map char

theorem written_respelled (piece : Piece) :
    (piece.respelled flat).flatMap written = piece.halfway flat := by
  cases piece with
  | char c => rfl
  | location form found =>
    cases form with
    | severe => exact flatMap_map_char (fun _ => rfl) _
    | parenthesized => exact List.append_nil _

theorem respelled_cases (flat : FlatText) (piece : Piece) :
    (∃ found, piece = location .parenthesized found ∧
      piece.respelled flat = [location .parenthesized found]) ∨
      ∃ cs : List Char, piece.respelled flat = cs.map char := by
  cases piece with
  | char c => exact .inr ⟨[c], rfl⟩
  | location form found =>
    cases form with
    | severe => exact .inr ⟨_, rfl⟩
    | parenthesized => exact .inl ⟨found, rfl, rfl⟩

end Piece

variable {flat : FlatText} {sought : Form → Location → Bool} {start : Bool} {cs : List Char}
  {pieces : List Piece}

/-- The first pass leaves the rest of a line as it is. -/
theorem Cut.exists_append (h : Cut sought false cs pieces) {text following : List Char}
    (hsplit : pieces.flatMap (Piece.halfway flat) = text ++ following) (htext : '\n' ∉ text) :
    ∃ following', cs = text ++ following' := by
  induction text generalizing cs pieces with
  | nil => exact ⟨cs, rfl⟩
  | cons c text ih =>
    rw [List.mem_cons, not_or] at htext
    cases h with
    | done => simp at hsplit
    | @char _ d cs pieces _ hrest =>
      obtain ⟨rfl, hbehind⟩ := List.cons.inj hsplit
      rw [decide_eq_false (Ne.symm htext.1)] at hrest
      obtain ⟨following', rfl⟩ := ih hrest hbehind htext.2
      exact ⟨following', rfl⟩

theorem find?_eq_none_of_begins {form form' : Form} {c : Char} (hbegins : form.Begins c)
    (hne : form ≠ form') (cs : List Char) : form'.find? (c :: cs) = none := by
  rw [Option.eq_none_iff_forall_ne_some]
  intro location hfind
  obtain ⟨following, htext, hreads⟩ := find?_eq_some_iff.mp hfind
  obtain ⟨d, text, hwritten, hbegins'⟩ := hreads.exists_begins
  rw [hwritten] at htext
  obtain ⟨rfl, _⟩ := List.cons.inj htext
  exact hne (hbegins.unique hbegins')

section Relocated

variable {form : Form} {location : Location} {following : List Char}

theorem Reads.exists_label (h : Reads .severe location following) :
    ∃ c cs, location.label = c :: cs ∧ Form.severe.Begins c ∧ '\n' ∉ c :: cs := by
  cases h with
  | severe hseverity =>
    rcases hseverity with rfl | rfl
    · exact ⟨'E', "RROR: ".toList, rfl, .inl rfl, by decide⟩
    · exact ⟨'W', "ARNING: ".toList, rfl, .inr rfl, by decide⟩

/-- Nothing is found in what the first pass makes of a location with a severity. -/
theorem Reads.quiet_relocated (h : Reads .severe location following) (hnames : flat.HasPlainNames)
    {front back : List Char}
    (hsplit : (Piece.location .severe location).relocated flat = front ++ back)
    (hfront : startsLine true front) (rest : List Char) :
    Form.parenthesized.find? (back ++ rest) = none := by
  rw [Piece.relocated] at hsplit
  cases front with
  | nil =>
    have hhead : ∃ c cs, back = c :: cs ∧ Form.severe.Begins c := by
      rw [List.nil_append] at hsplit
      rw [← hsplit]
      split
      · obtain ⟨c, cs, hlabel, hbegins, _⟩ := h.exists_label
        exact ⟨c, _, by rw [hlabel]; rfl, hbegins⟩
      · exact h.exists_begins
    obtain ⟨c, cs, rfl, hbegins⟩ := hhead
    exact find?_eq_none_of_begins hbegins (by decide) (cs ++ rest)
  | cons c front =>
    have hnewline := getLast?_of_startsLine hfront (List.cons_ne_nil _ _)
    split at hsplit
    · next place hplace =>
        obtain ⟨_, _, hlabel, _, hfree⟩ := h.exists_label
        have hmem : '\n' ∈ location.label ++ place.toList := by
          rw [hsplit]
          exact List.mem_append_left _ (List.mem_of_getLast? hnewline)
        rw [hlabel] at hmem
        exact ((List.mem_append.mp hmem).elim hfree (newline_not_mem_place hplace hnames)).elim
    · exact h.find?_eq_none hsplit hnewline _ rest

/-- What is written for a location ends within a line. -/
theorem Reads.startsLine_relocated (h : Reads form location following) (flat : FlatText)
    (start : Bool) : startsLine start ((Piece.location form location).relocated flat) = false := by
  rw [Piece.relocated]
  split
  · next place hplace =>
      obtain ⟨cs, hend⟩ := exists_eq_of_place? hplace
      rw [hend, ← List.append_assoc, startsLine_append]
      rfl
  · exact h.startsLine_written start

end Relocated

/-- The locations in parentheses are the same after the first pass. -/
theorem Cut.halfway (h : Cut (fun _ _ => true) start cs pieces) (hnames : flat.HasPlainNames) :
    Cut (fun form _ => form = .parenthesized) start (pieces.flatMap (Piece.halfway flat))
      (pieces.flatMap (Piece.respelled flat)) := by
  induction h with
  | done => exact .done
  | @char start c cs pieces hnone hrest ih =>
    refine .char (fun hstart form location hfind hform => ?_) ih
    obtain rfl : form = .parenthesized := by simpa using hform
    obtain ⟨following, htext, hreads⟩ := find?_eq_some_iff.mp hfind
    obtain ⟨d, text, hwritten, hdigit⟩ := hreads.exists_begins
    rw [hwritten] at htext
    obtain ⟨rfl, hbehind⟩ := List.cons.inj htext
    have hc : c ≠ '\n' := by
      rintro rfl
      have hother : ¬ Text.isDecimalDigit '\n' := by decide
      exact hother hdigit
    have hline : '\n' ∉ text := by
      intro hmem
      have hparenthesis := hreads.mem_written (c := '\n') (by decide)
        (hwritten ▸ List.mem_cons_of_mem _ hmem)
      exact absurd hparenthesis (by decide)
    rw [decide_eq_false hc] at hrest
    obtain ⟨following', rfl⟩ := hrest.exists_append hbehind hline
    have hfind' := find?_eq_some_iff.mpr
      ⟨following', by rw [hwritten], hreads.replace_parenthesized following'⟩
    exact hnone hstart _ location hfind' rfl
  | @location form location cs pieces hreads _ _ ih =>
    cases form with
    | parenthesized => exact .location (hreads.replace_parenthesized _) (by simp) ih
    | severe =>
      refine Cut.verbatim (fun front back hsplit _ hfront form other hfind hform => ?_) ?_
      · obtain rfl : form = .parenthesized := by simpa using hform
        rw [hreads.quiet_relocated hnames hsplit hfront] at hfind
        cases hfind
      · have hend : startsLine true (Piece.halfway flat (.location .severe location)) = false :=
          hreads.startsLine_relocated flat true
        rw [hend]
        exact ih

section Passes

/-- A pass replaces the locations of its form. -/
theorem Piece.relocated_keep_location (form other : Form) (found : Location) :
    ((location other found).keep (replaces flat form)).flatMap (relocated flat) =
      if other = form then (location other found).relocated flat else found.written := by
  rw [keep]
  split
  case isTrue hreplaced =>
    rw [if_pos (replaces_iff.mp hreplaced).1, List.flatMap_singleton]
  case isFalse hkept =>
    rw [flatMap_map_char fun _ => rfl]
    split
    case isFalse => rfl
    case isTrue hform =>
      have hplace : place? flat found.line = none := by
        simpa [replaces_iff, hform] using hkept
      rw [relocated, hplace]

theorem Piece.relocated_keep_severe (piece : Piece) :
    (piece.keep (replaces flat .severe)).flatMap (relocated flat) = piece.halfway flat := by
  cases piece with
  | char c => rfl
  | location form found =>
    rw [relocated_keep_location]
    cases form <;> rfl

theorem Piece.relocated_keep_respelled (piece : Piece) :
    (piece.respelled flat).flatMap (fun inner =>
      (inner.keep (replaces flat .parenthesized)).flatMap (relocated flat)) =
        piece.relocated flat := by
  cases piece with
  | char c => rfl
  | location form found =>
    cases form with
    | severe => exact flatMap_map_char (fun _ => rfl) _
    | parenthesized =>
      rw [respelled, List.flatMap_singleton, relocated_keep_location]
      rfl

theorem Cut.firstPass (h : Cut (fun _ _ => true) start cs pieces) :
    relocateFrom flat Location.severe? cs start 0 = pieces.flatMap (Piece.halfway flat) := by
  have hcut : Cut (replaces flat .severe) start cs _ := h.restrict fun _ _ _ => rfl
  have hpass := hcut.relocateFrom_eq
  rw [List.flatMap_assoc] at hpass
  simp only [Piece.relocated_keep_severe] at hpass
  exact hpass

theorem Cut.secondPass (h : Cut (fun _ _ => true) start cs pieces) (hnames : flat.HasPlainNames) :
    relocateFrom flat Location.parenthesized? (pieces.flatMap (Piece.halfway flat)) start 0 =
      pieces.flatMap (Piece.relocated flat) := by
  have hcut : Cut (replaces flat .parenthesized) start _ _ :=
    (h.halfway hnames).restrict fun form _ hreplaced =>
      decide_eq_true (replaces_iff.mp hreplaced).1
  have hpass := hcut.relocateFrom_eq
  rw [List.flatMap_assoc, List.flatMap_assoc] at hpass
  simp only [Piece.relocated_keep_respelled] at hpass
  exact hpass

end Passes

section Occurrences

variable {text before following : List Char} {form : Form} {location : Location}

/-- Whether a location stands in a text, behind `before` and in front of `following`, at the
beginning of a line. -/
structure Occurs (text before : List Char) (form : Form) (location : Location)
    (following : List Char) : Prop where
  text_eq : text = before ++ (location.written ++ following)
  starts : before = [] ∨ before.getLast? = some '\n'
  reads : Reads form location following

theorem startsLine_iff (before : List Char) :
    startsLine true before ↔ before = [] ∨ before.getLast? = some '\n' := by
  rcases List.eq_nil_or_concat before with rfl | ⟨cs, c, rfl⟩
  · simp [startsLine]
  · simp [startsLine]

theorem Cut.occurs_iff_exists {sought : Form → Location → Bool}
    (h : Cut sought true text pieces) (hsought : sought form location) :
    Occurs text before form location following ↔
      ∃ earlier later, pieces = earlier ++ .location form location :: later ∧
        earlier.flatMap Piece.written = before ∧ later.flatMap Piece.written = following := by
  rw [← h.occurs_iff, startsLine_iff]
  exact ⟨fun h => ⟨h.text_eq, h.starts, h.reads, hsought⟩, fun h => ⟨h.1, h.2.1, h.2.2.1⟩⟩

/-- The locations in parentheses stand in the respelled pieces where they stand in the pieces. -/
theorem Piece.flatMap_respelled_eq_append_iff {earlier later : List Piece} :
    pieces.flatMap (respelled flat) = earlier ++ Piece.location .parenthesized location :: later ↔
      ∃ front back, pieces = front ++ .location .parenthesized location :: back ∧
        front.flatMap (respelled flat) = earlier ∧ back.flatMap (respelled flat) = later := by
  constructor
  · intro h
    induction pieces generalizing earlier with
    | nil => simp at h
    | cons piece pieces ih =>
      rw [List.flatMap_cons] at h
      rcases respelled_cases flat piece with ⟨found, rfl, hrespelled⟩ | ⟨chars, hrespelled⟩
      · rw [hrespelled] at h
        cases earlier with
        | nil =>
          obtain ⟨hfound, rfl⟩ := List.cons.inj h
          cases hfound
          exact ⟨[], pieces, rfl, rfl, rfl⟩
        | cons first earlier =>
          obtain ⟨rfl, hrest⟩ := List.cons.inj h
          obtain ⟨front, back, rfl, rfl, rfl⟩ := ih hrest
          exact ⟨_ :: front, back, rfl, rfl, rfl⟩
      · rw [hrespelled] at h
        rcases List.append_eq_append_iff.mp h with ⟨earlier', rfl, hrest⟩ | ⟨inside, hchars, hrest⟩
        · obtain ⟨front, back, rfl, rfl, rfl⟩ := ih hrest
          exact ⟨piece :: front, back, rfl, by rw [List.flatMap_cons, hrespelled], rfl⟩
        · cases inside with
          | nil =>
            have hbehind : pieces.flatMap (respelled flat) =
                [] ++ Piece.location .parenthesized location :: later := hrest.symm
            obtain ⟨front, back, rfl, hfront, rfl⟩ := ih hbehind
            refine ⟨piece :: front, back, rfl, ?_, rfl⟩
            rw [List.flatMap_cons, hrespelled, hfront, hchars, List.append_nil, List.append_nil]
          | cons other inside =>
            obtain ⟨rfl, _⟩ := List.cons.inj hrest
            have hmem : Piece.location .parenthesized location ∈ chars.map Piece.char := by
              rw [hchars]
              simp
            simp at hmem
  · rintro ⟨front, back, rfl, rfl, rfl⟩
    rw [List.flatMap_append, List.flatMap_cons]
    rfl

/-- Two locations of a text are the same, or one ends before the other begins. -/
theorem Cut.apart {sought : Form → Location → Bool} {before' following' : List Char}
    {form' : Form} {location' : Location} (h : Cut sought true text pieces)
    (hfirst : Occurs text before form location following) (hsought : sought form location)
    (hsecond : Occurs text before' form' location' following') (hsought' : sought form' location') :
    (before = before' ∧ form = form' ∧ location = location') ∨
      before ++ location.written <+: before' ∨ before' ++ location'.written <+: before := by
  obtain ⟨earlier, later, hpieces, rfl, rfl⟩ := (h.occurs_iff_exists hsought).mp hfirst
  obtain ⟨earlier', later', hpieces', rfl, rfl⟩ := (h.occurs_iff_exists hsought').mp hsecond
  rw [hpieces] at hpieces'
  rcases List.append_eq_append_iff.mp hpieces' with ⟨between, rfl, hrest⟩ | ⟨between, rfl, hrest⟩
  · cases between with
    | nil =>
      cases (List.cons.inj hrest).1
      exact .inl ⟨by simp, rfl, rfl⟩
    | cons piece between =>
      obtain ⟨rfl, _⟩ := List.cons.inj hrest
      refine .inr (.inl ⟨between.flatMap Piece.written, ?_⟩)
      rw [List.flatMap_append, List.flatMap_cons, List.append_assoc]
      rfl
  · cases between with
    | nil =>
      cases (List.cons.inj hrest).1
      exact .inl ⟨by simp, rfl, rfl⟩
    | cons piece between =>
      obtain ⟨rfl, _⟩ := List.cons.inj hrest
      refine .inr (.inr ⟨between.flatMap Piece.written, ?_⟩)
      rw [List.flatMap_append, List.flatMap_cons, List.append_assoc]
      rfl

end Occurrences

/-- A log is relocated by one replacement of all locations at once. The log is made of pieces, among
which are exactly the locations that stand in it, and no two of these overlap. Both passes together
replace each of them that is on a line copied from a file. The first pass replaces those with a
severity, and the second one finds the same locations in parentheses as before. -/
theorem relocate_eq_pieces (flat : FlatText) (log : String) (hnames : flat.HasPlainNames) :
    ∃ pieces : List Piece, pieces.flatMap Piece.written = log.toList ∧
      relocateForm flat Location.severe? log =
        String.ofList (pieces.flatMap (Piece.halfway flat)) ∧
      relocate flat log = String.ofList (pieces.flatMap (Piece.relocated flat)) ∧
      (∀ before form location following, Occurs log.toList before form location following ↔
        ∃ earlier later, pieces = earlier ++ .location form location :: later ∧
          earlier.flatMap Piece.written = before ∧ later.flatMap Piece.written = following) ∧
      (∀ before location following,
        Occurs (relocateForm flat Location.severe? log).toList before .parenthesized location
            following ↔
          ∃ earlier later, pieces = earlier ++ .location .parenthesized location :: later ∧
            earlier.flatMap (Piece.halfway flat) = before ∧
            later.flatMap (Piece.halfway flat) = following) ∧
      (∀ before form location following before' form' location' following',
        Occurs log.toList before form location following →
        Occurs log.toList before' form' location' following' →
          (before = before' ∧ form = form' ∧ location = location') ∨
            before ++ location.written <+: before' ∨ before' ++ location'.written <+: before) ∧
      ∀ digits place, place? flat digits = some place ↔ IsPlace flat digits place := by
  obtain ⟨pieces, hcut⟩ := Cut.exists_cut (fun _ _ => true) true log.toList
  have hfirst : relocateForm flat Location.severe? log =
      String.ofList (pieces.flatMap (Piece.halfway flat)) :=
    congrArg String.ofList hcut.firstPass
  have hsecond : relocate flat log = String.ofList (pieces.flatMap (Piece.relocated flat)) := by
    rw [relocate, hfirst, relocateForm, String.toList_ofList, hcut.secondPass hnames]
  refine ⟨pieces, hcut.written_eq, hfirst, hsecond,
    fun before form location following => hcut.occurs_iff_exists rfl, ?_,
    fun _ _ _ _ _ _ _ _ hoccurs hoccurs' => hcut.apart hoccurs rfl hoccurs' rfl,
    fun digits place => place?_eq_some_iff⟩
  intro before location following
  rw [hfirst, String.toList_ofList, (hcut.halfway hnames).occurs_iff_exists (by simp)]
  simp only [Piece.flatMap_respelled_eq_append_iff]
  constructor
  · rintro ⟨_, _, ⟨front, back, rfl, rfl, rfl⟩, rfl, rfl⟩
    simp only [List.flatMap_assoc, Piece.written_respelled]
    exact ⟨front, back, rfl, rfl, rfl⟩
  · rintro ⟨front, back, rfl, rfl, rfl⟩
    refine ⟨_, _, ⟨front, back, rfl, rfl, rfl⟩, ?_, ?_⟩
    · simp only [List.flatMap_assoc, Piece.written_respelled]
    · simp only [List.flatMap_assoc, Piece.written_respelled]

/-- A log with a location that runs over the end of a line, two in parentheses, and one that does not
stand at the beginning of a line. -/
theorem relocate_eq_pieces_bothForms :
    let flat : FlatText := ⟨"", [.generated, .source ⟨"a"⟩ 7]⟩
    let log := "ERROR:\n 0:2: x\n0(2) y\n0(1) z\nat 0(2)"
    flat.HasPlainNames ∧ relocate flat log = "ERROR: a(7): x\na(7) y\n0(1) z\nat 0(2)" ∧
    ∃ pieces : List Piece, pieces.flatMap Piece.written = log.toList ∧
      relocate flat log = String.ofList (pieces.flatMap (Piece.relocated flat)) := by
  intro flat log
  have hnames : flat.HasPlainNames := by
    intro file line hmem
    obtain ⟨rfl, rfl⟩ : file = ⟨"a"⟩ ∧ line = 7 := by simpa [flat] using hmem
    decide
  obtain ⟨pieces, hwritten, _, hrelocated, _⟩ := relocate_eq_pieces flat log hnames
  exact ⟨hnames, by decide +kernel, pieces, hwritten, hrelocated⟩

end Log

end ShaderInline
