import Mathlib.Data.Set.Subsingleton
import ShaderInline.Proofs.Lines

/-!
# The grammar of import lines

The readers of an import line cut off longest runs of characters. Such a run is found exactly where
the text is made of it and of what cannot continue it, so each reader accepts exactly the texts that
are put together in one way. What follows the closing delimiter plays no part in that. The blanks
around a line are two such runs.

So the lines that are read as imports are those with a spelling, which is unique, and of the other
lines those are malformed that begin with the keyword.
-/
namespace ShaderInline

namespace Text

/-- Whether a text neither begins nor ends with a blank. -/
def IsTrimmed (cs : List Char) : Prop :=
  (∀ c ∈ cs.head?, ¬ isBlank c) ∧ ∀ c ∈ cs.getLast?, ¬ isBlank c

theorem trimChars_eq_self {cs : List Char} (h : IsTrimmed cs) : trimChars cs = cs := by
  have hfront : cs.dropWhile isBlank = cs :=
    (takeWhile_dropWhile_eq_iff.mpr ⟨(List.nil_append _).symm, by simp, h.1⟩).2
  have hback : cs.reverse.dropWhile isBlank = cs.reverse := by
    have hlast : ∀ c ∈ cs.reverse.head?, ¬ isBlank c := by
      rw [List.head?_reverse]
      exact h.2
    exact (takeWhile_dropWhile_eq_iff.mpr ⟨(List.nil_append _).symm, by simp, hlast⟩).2
  rw [trimChars, hfront, hback, List.reverse_reverse]

theorem exists_eq_append_trimChars (cs : List Char) :
    ∃ blanks, cs = cs.takeWhile isBlank ++ (trimChars cs ++ blanks) ∧ ∀ c ∈ blanks, isBlank c := by
  refine ⟨((cs.dropWhile isBlank).reverse.takeWhile isBlank).reverse, ?_, fun c hmem => ?_⟩
  · rw [trimChars, ← List.reverse_append, List.takeWhile_append_dropWhile,
      List.reverse_reverse, List.takeWhile_append_dropWhile]
  · exact List.all_eq_true.mp List.all_takeWhile c (List.mem_reverse.mp hmem)

theorem isTrimmed_trimChars (cs : List Char) : IsTrimmed (trimChars cs) := by
  constructor
  · intro c hc
    obtain ⟨blanks, hcs, -⟩ := exists_eq_append_trimChars cs
    have hdrop : cs.dropWhile isBlank = trimChars cs ++ blanks :=
      List.append_cancel_left (List.takeWhile_append_dropWhile.trans hcs)
    have hhead := (takeWhile_dropWhile_eq_iff.mp ⟨rfl, hdrop⟩).2.2
    exact hhead c (by rw [List.head?_append, Option.mem_def.mp hc]; rfl)
  · intro c hc
    rw [trimChars, List.getLast?_reverse] at hc
    exact (takeWhile_dropWhile_eq_iff.mp ⟨rfl, rfl⟩).2.2 c hc

/-- The blanks around a text are trimmed away, and nothing else. -/
theorem trimChars_append {blanks core blanks' : List Char} (hbefore : ∀ c ∈ blanks, isBlank c)
    (hcore : IsTrimmed core) (hbehind : ∀ c ∈ blanks', isBlank c) :
    trimChars (blanks ++ (core ++ blanks')) = core := by
  have hback : trimChars (core ++ blanks') = core :=
    (trimChars_append_of_blank core hbehind).trans (trimChars_eq_self hcore)
  rw [trimChars, List.dropWhile_append_of_pos hbefore]
  exact hback

end Text

namespace ImportReading

/-- Whether a path may stand between two delimiters. -/
def Delimits (first last : Char) : Prop := first = '"' ∧ last = '"' ∨ first = '<' ∧ last = '>'

/-- Whether a text may be the path of an import. -/
def IsPath (path : List Char) : Prop := path ≠ [] ∧ ∀ c ∈ path, isPathChar c

theorem Delimits.not_isBlank {first last : Char} (h : Delimits first last) :
    ¬ Text.isBlank first ∧ ¬ Text.isBlank last := by
  rcases h with ⟨rfl, rfl⟩ | ⟨rfl, rfl⟩ <;> decide

variable {directives : Directives} {line importText : String} {trailing : Option String}
variable {close : Char} {cs path rest : List Char}

theorem closedPath?_eq_some_iff (hclose : ¬ isPathChar close) :
    closedPath? close cs = some (path, rest) ↔ cs = path ++ close :: rest ∧ IsPath path := by
  have hread : closedPath? close cs = some (path, rest) ↔
      path ≠ [] ∧ cs.takeWhile isPathChar = path ∧ cs.dropWhile isPathChar = close :: rest := by
    unfold closedPath?
    split
    · next c taken d dropped htaken hdropped =>
        rw [htaken, hdropped, List.cons.injEq]
        constructor
        · intro h
          split at h
          case isTrue hd =>
            cases h
            exact ⟨List.cons_ne_nil _ _, rfl, hd, rfl⟩
          case isFalse => cases h
        · rintro ⟨_, rfl, rfl, rfl⟩
          exact if_pos rfl
    · next hother =>
        refine iff_of_false (by simp) ?_
        rintro ⟨hne, htaken, hdropped⟩
        obtain ⟨c, taken, rfl⟩ := List.exists_cons_of_ne_nil hne
        exact hother c taken close rest htaken hdropped
  rw [hread, takeWhile_dropWhile_eq_iff, IsPath]
  simp only [List.head?_cons, Option.mem_some_iff, forall_eq', hclose]
  tauto

theorem delimitedPath?_eq_some_iff :
    delimitedPath? cs = some (path, rest) ↔
      ∃ first last, Delimits first last ∧ cs = first :: (path ++ last :: rest) ∧ IsPath path := by
  unfold delimitedPath?
  split
  · rw [closedPath?_eq_some_iff (by decide)]
    simp [Delimits]
  · rw [closedPath?_eq_some_iff (by decide)]
    simp [Delimits]
  · next hquote hangle =>
      refine iff_of_false (by simp) ?_
      rintro ⟨first, last, ⟨rfl, rfl⟩ | ⟨rfl, rfl⟩, rfl, _⟩
      · exact hquote _ rfl
      · exact hangle _ rfl

/-- An operand is made of blanks, and a path between delimiters. -/
theorem operand?_eq_some_iff :
    operand? cs = some (path, rest) ↔
      ∃ blanks first last, blanks ≠ [] ∧ (∀ c ∈ blanks, Text.isBlank c) ∧ Delimits first last ∧
        cs = blanks ++ first :: (path ++ last :: rest) ∧ IsPath path := by
  constructor
  · intro h
    cases cs with
    | nil => cases h
    | cons c cs =>
      rw [operand?] at h
      split at h
      case isFalse => cases h
      case isTrue hblank =>
        obtain ⟨first, last, hdelimits, hcut, hpath⟩ := delimitedPath?_eq_some_iff.mp h
        obtain ⟨hcs, hblanks, _⟩ := takeWhile_dropWhile_eq_iff.mp ⟨rfl, hcut⟩
        refine ⟨c :: cs.takeWhile Text.isBlank, first, last, List.cons_ne_nil _ _,
          List.forall_mem_cons.mpr ⟨hblank, hblanks⟩, hdelimits, ?_, hpath⟩
        rw [List.cons_append, ← hcs]
  · rintro ⟨blanks, first, last, hne, hblanks, hdelimits, rfl, hpath⟩
    obtain ⟨c, blanks, rfl⟩ := List.exists_cons_of_ne_nil hne
    obtain ⟨hblank, hblanks⟩ := List.forall_mem_cons.mp hblanks
    have hstop : ∀ c ∈ (first :: (path ++ last :: rest)).head?, ¬ Text.isBlank c := by
      simpa using hdelimits.not_isBlank.1
    have hcut := takeWhile_dropWhile_eq_iff.mpr ⟨rfl, hblanks, hstop⟩
    rw [List.cons_append, operand?, if_pos hblank, hcut.2]
    exact delimitedPath?_eq_some_iff.mpr ⟨first, last, hdelimits, rfl, hpath⟩

/-- An operand ends where its closing delimiter stands, whatever follows. -/
theorem exists_of_operand? (h : operand? cs = some (path, rest)) :
    ∃ front last, cs = front ++ last :: rest ∧ ¬ Text.isBlank last ∧
      ∀ other, operand? (front ++ last :: other) = some (path, other) := by
  obtain ⟨blanks, first, last, hne, hblanks, hdelimits, rfl, hpath⟩ := operand?_eq_some_iff.mp h
  refine ⟨blanks ++ first :: path, last, by simp, hdelimits.not_isBlank.2, fun other => ?_⟩
  exact operand?_eq_some_iff.mpr
    ⟨blanks, first, last, hne, hblanks, hdelimits, by simp, hpath⟩

theorem ofLine_eq_directive_iff :
    ofLine directives line = .directive importText trailing ↔ ∃ following path rest,
      Text.trimChars line.toList = directives.importKeyword.toList ++ following ∧
        operand? following = some (path, rest) ∧ importText = String.ofList path ∧
        trailing = trailing? rest := by
  constructor
  · intro h
    unfold ofLine at h
    split at h
    · cases h
    · next following hkeyword =>
        split at h
        · next path rest hoperand =>
            cases h
            have htrimmed := List.append_eq_of_isPrefixOf?_eq_some hkeyword
            exact ⟨following, path, rest, htrimmed.symm, hoperand, rfl, rfl⟩
        · cases h
  · rintro ⟨following, path, rest, htrimmed, hoperand, rfl, rfl⟩
    have hkeyword := List.isPrefixOf?_eq_some_iff_append_eq.mpr htrimmed.symm
    simp only [ofLine, hkeyword, hoperand]

theorem ofLine_eq_absent_iff :
    ofLine directives line = .absent ↔
      ¬ directives.importKeyword.toList <+: Text.trimChars line.toList := by
  unfold ofLine
  split
  · next hkeyword =>
      refine iff_of_true rfl fun ⟨following, htrimmed⟩ => ?_
      rw [List.isPrefixOf?_eq_some_iff_append_eq.mpr htrimmed] at hkeyword
      cases hkeyword
  · next following hkeyword =>
      have hprefix := List.append_eq_of_isPrefixOf?_eq_some hkeyword
      refine iff_of_false ?_ (not_not_intro ⟨following, hprefix⟩)
      split <;> simp

/-- The text after an import is trimmed, and there is none if it is blank. -/
theorem trailing?_eq (rest : List Char) :
    trailing? rest =
      if rest.all Text.isBlank then none else some (String.ofList (Text.trimChars rest)) := by
  by_cases hblank : rest.all Text.isBlank
  · have htrimmed : Text.trimChars rest = [] :=
      Text.trimChars_append_of_blank [] (List.all_eq_true.mp hblank)
    rw [if_pos hblank, trailing?, htrimmed]
  · have hne : Text.trimChars rest ≠ [] := by
      intro hempty
      obtain ⟨blanks, hrest, hbehind⟩ := Text.exists_eq_append_trimChars rest
      rw [hempty, List.nil_append] at hrest
      apply hblank
      rw [hrest, List.all_append, List.all_takeWhile, Bool.true_and]
      exact List.all_eq_true.mpr hbehind
    rw [if_neg hblank, trailing?]
    split
    · contradiction
    · rfl

/-- The parts of an import line behind the keyword. -/
@[ext] structure Spelling where
  blanks : List Char
  first : Char
  path : List Char
  last : Char
  rest : List Char

/-- Whether a text is the keyword and these parts in order. -/
structure Spells (keyword text : List Char) (parts : Spelling) : Prop where
  text_eq : text =
    keyword ++ (parts.blanks ++ parts.first :: (parts.path ++ parts.last :: parts.rest))
  blanks_ne_nil : parts.blanks ≠ []
  isBlank : ∀ c ∈ parts.blanks, Text.isBlank c
  delimits : parts.first = '"' ∧ parts.last = '"' ∨ parts.first = '<' ∧ parts.last = '>'
  path_ne_nil : parts.path ≠ []
  quote_not_mem : '"' ∉ parts.path
  angle_not_mem : '>' ∉ parts.path

theorem isPath_iff : IsPath path ↔ path ≠ [] ∧ '"' ∉ path ∧ '>' ∉ path := by
  simp only [IsPath, isPathChar, Bool.and_eq_true, bne_iff_ne]
  constructor
  · rintro ⟨hne, hall⟩
    exact ⟨hne, fun hmem => (hall _ hmem).1 rfl, fun hmem => (hall _ hmem).2 rfl⟩
  · rintro ⟨hne, hquote, hangle⟩
    exact ⟨hne, fun c hmem => ⟨fun hc => hquote (hc ▸ hmem), fun hc => hangle (hc ▸ hmem)⟩⟩

section Spellings

variable {keyword text : List Char} {parts parts' : Spelling}

/-- A text has a spelling where an operand follows the keyword. -/
theorem exists_spells_iff {P : List Char → List Char → Prop} :
    (∃ parts, Spells keyword text parts ∧ P parts.path parts.rest) ↔
      ∃ following path rest, text = keyword ++ following ∧
        operand? following = some (path, rest) ∧ P path rest := by
  constructor
  · rintro ⟨parts, hspells, hparts⟩
    refine ⟨_, parts.path, parts.rest, hspells.text_eq, operand?_eq_some_iff.mpr ?_, hparts⟩
    exact ⟨parts.blanks, parts.first, parts.last, hspells.blanks_ne_nil, hspells.isBlank,
      hspells.delimits, rfl,
      isPath_iff.mpr ⟨hspells.path_ne_nil, hspells.quote_not_mem, hspells.angle_not_mem⟩⟩
  · rintro ⟨following, path, rest, htext, hoperand, hparts⟩
    obtain ⟨blanks, first, last, hne, hblanks, hdelimits, rfl, hpath⟩ :=
      operand?_eq_some_iff.mp hoperand
    obtain ⟨hpath, hquote, hangle⟩ := isPath_iff.mp hpath
    exact ⟨⟨blanks, first, path, last, rest⟩,
      ⟨htext, hne, hblanks, hdelimits, hpath, hquote, hangle⟩, hparts⟩

/-- The blanks are the longest run of them behind the keyword. -/
theorem Spells.cut_blanks (h : Spells keyword text parts) :
    (text.drop keyword.length).takeWhile Text.isBlank = parts.blanks ∧
      (text.drop keyword.length).dropWhile Text.isBlank =
        parts.first :: (parts.path ++ parts.last :: parts.rest) := by
  rw [h.text_eq, List.drop_left]
  have hfirst := (Delimits.not_isBlank h.delimits).1
  exact takeWhile_dropWhile_eq_iff.mpr ⟨rfl, h.isBlank, by simpa using hfirst⟩

/-- The path is the longest run of its characters behind the first delimiter. -/
theorem Spells.cut_path (h : Spells keyword text parts) :
    (parts.path ++ parts.last :: parts.rest).takeWhile isPathChar = parts.path ∧
      (parts.path ++ parts.last :: parts.rest).dropWhile isPathChar = parts.last :: parts.rest := by
  have hall := (isPath_iff.mpr ⟨h.path_ne_nil, h.quote_not_mem, h.angle_not_mem⟩).2
  refine takeWhile_dropWhile_eq_iff.mpr ⟨rfl, hall, ?_⟩
  rcases h.delimits with ⟨_, hlast⟩ | ⟨_, hlast⟩ <;> simp [hlast, isPathChar]

theorem Spells.unique (h : Spells keyword text parts) (h' : Spells keyword text parts') :
    parts = parts' := by
  obtain ⟨hblanks, hoperand⟩ := h.cut_blanks
  obtain ⟨hblanks', hoperand'⟩ := h'.cut_blanks
  obtain ⟨hfirst, hbehind⟩ := List.cons.inj (hoperand.symm.trans hoperand')
  obtain ⟨hpath, hrest⟩ := h.cut_path
  obtain ⟨hpath', hrest'⟩ := h'.cut_path
  rw [hbehind] at hpath hrest
  obtain ⟨hlast, hrest⟩ := List.cons.inj (hrest.symm.trans hrest')
  exact Spelling.ext (hblanks.symm.trans hblanks') hfirst (hpath.symm.trans hpath') hlast hrest

end Spellings

/-- The import lines are those with a spelling, which gives what is read. -/
theorem ofLine_eq_directive_iff_spells :
    ofLine directives line = .directive importText trailing ↔
      ∃ parts, Spells directives.importKeyword.toList (Text.trimChars line.toList) parts ∧
        importText = String.ofList parts.path ∧ trailing = trailing? parts.rest := by
  rw [ofLine_eq_directive_iff]
  exact (exists_spells_iff (P := fun path rest =>
    importText = String.ofList path ∧ trailing = trailing? rest)).symm

/-- A line is read by the grammar of imports. It is no import line exactly if it does not begin with
the keyword when the blanks around it are left out. It is an import exactly if it has a spelling,
which gives the path and, trimmed, the text after it. No line has two spellings, and a line that
begins with the keyword and has none is malformed. -/
theorem ofLine_follows_grammar (directives : Directives) (line : String) :
    let keyword := directives.importKeyword.toList
    let trimmed := Text.trimChars line.toList
    (ofLine directives line = .absent ↔ ¬ keyword <+: trimmed) ∧
    (∀ importText trailing, ofLine directives line = .directive importText trailing ↔
      ∃ parts, Spells keyword trimmed parts ∧ importText = String.ofList parts.path ∧
        trailing = if parts.rest.all Text.isBlank then none
          else some (String.ofList (Text.trimChars parts.rest))) ∧
    {parts | Spells keyword trimmed parts}.Subsingleton ∧
    (ofLine directives line = .malformed ↔
      keyword <+: trimmed ∧ ¬ ∃ parts, Spells keyword trimmed parts) := by
  intro keyword trimmed
  have hread : ∀ importText trailing, ofLine directives line = .directive importText trailing ↔
      ∃ parts, Spells keyword trimmed parts ∧ importText = String.ofList parts.path ∧
        trailing = if parts.rest.all Text.isBlank then none
          else some (String.ofList (Text.trimChars parts.rest)) := by
    intro importText trailing
    simp only [← trailing?_eq]
    exact ofLine_eq_directive_iff_spells
  refine ⟨ofLine_eq_absent_iff, hread, fun parts h parts' h' => h.unique h', ?_⟩
  constructor
  · intro hmalformed
    constructor
    · by_contra habsent
      rw [ofLine_eq_absent_iff.mpr habsent] at hmalformed
      cases hmalformed
    · rintro ⟨parts, hspells⟩
      rw [(hread _ _).mpr ⟨parts, hspells, rfl, rfl⟩] at hmalformed
      cases hmalformed
  · rintro ⟨hkeyword, hnone⟩
    cases hreading : ofLine directives line with
    | absent => exact absurd hkeyword (ofLine_eq_absent_iff.mp hreading)
    | directive importText trailing =>
      obtain ⟨parts, hspells, _⟩ := (hread importText trailing).mp hreading
      exact absurd ⟨parts, hspells⟩ hnone
    | malformed => rfl

/-- The delimiters of a path belong together. -/
example : ofLine {} "#import \"lib.glsl>\n" = .malformed := by decide

end ImportReading

end ShaderInline
