import Mathlib.Order.Bounds.Defs
import ShaderInline.Proofs.Blocks

/-!
# The ends of blocks

A conditional block ends behind the line that closes it. That is the first place where the lines
that close a conditional are one more than those that open one, counted behind the opening line. A
block without such a place takes all the lines. Every cut inside a block leaves it open, and so a
block that is opened inside another one ends where that one does at the latest.
-/
namespace ShaderInline

/-- How many of the lines open a conditional. -/
def openings (lines : List String) : Nat := lines.countP opensConditional

/-- How many of the lines close a conditional. -/
def closings (lines : List String) : Nat := lines.countP closesConditional

/-- Whether the conditional opened at index `opening` is closed before index `stop`: of the lines
between, those that close a conditional outnumber by one those that open one. -/
def ClosesBlock (lines : List String) (opening stop : Nat) : Prop :=
  opening < stop ∧
    closings (lines.extract (opening + 1) stop) = openings (lines.extract (opening + 1) stop) + 1

instance (lines : List String) (opening stop : Nat) : Decidable (ClosesBlock lines opening stop) :=
  inferInstanceAs (Decidable (_ ∧ _))

section Counts

variable {line : String}

theorem closings_cons (line : String) (lines : List String) :
    closings (line :: lines) = closings lines + if closesConditional line then 1 else 0 :=
  List.countP_cons

theorem openings_cons (line : String) (lines : List String) :
    openings (line :: lines) = openings lines + if opensConditional line then 1 else 0 :=
  List.countP_cons

theorem closings_append (lines more : List String) :
    closings (lines ++ more) = closings lines + closings more :=
  List.countP_append

theorem openings_append (lines more : List String) :
    openings (lines ++ more) = openings lines + openings more :=
  List.countP_append

theorem exists_closesConditional {line? : Option String} (h : 0 < closings line?.toList) :
    ∃ line, line? = some line ∧ closesConditional line := by
  obtain ⟨line, hmem, hcloses⟩ := List.countP_pos_iff.mp h
  exact ⟨line, Option.mem_toList.mp hmem, hcloses⟩

/-- No line both opens and closes a conditional. -/
theorem not_closesConditional (h : opensConditional line) : ¬ closesConditional line := by
  intro hcloses
  rw [opensConditional, beginsWith, List.isPrefixOf_iff_prefix] at h
  rw [closesConditional, beginsWith, List.isPrefixOf_iff_prefix] at hcloses
  obtain ⟨rest, hopening⟩ := h
  obtain ⟨rest', hclosing⟩ := hcloses
  simp [← hopening] at hclosing

/-- Inside a conditional a line changes the depth by what it opens or closes. -/
theorem depthAfter_succ (line : String) (depth : Nat) :
    depthAfter line (depth + 1) + (if closesConditional line then 1 else 0) =
      depth + 1 + if opensConditional line then 1 else 0 := by
  rw [depthAfter_eq]
  by_cases hopens : opensConditional line
  · have hcloses := not_closesConditional hopens
    simp [hopens, hcloses]
  · by_cases hcloses : closesConditional line
    · simp [hopens, hcloses]
    · simp [hopens, hcloses]

end Counts

section Lengths

variable {lines : List String} {depth count : Nat}

theorem blockLength_le_length (depth : Nat) (lines : List String) :
    blockLength depth lines ≤ lines.length := by
  induction lines generalizing depth with
  | nil => cases depth <;> simp [blockLength]
  | cons line lines ih =>
    cases depth with
    | zero => simp [blockLength]
    | succ depth => exact Nat.succ_le_succ (ih (depthAfter line (depth + 1)))

/-- A block that is cut before its end is still open. -/
theorem closings_lt_of_lt_blockLength (h : count < blockLength depth lines) :
    closings (lines.take count) < openings (lines.take count) + depth := by
  induction lines generalizing depth count with
  | nil => cases depth <;> simp [blockLength] at h
  | cons line lines ih =>
    cases depth with
    | zero => simp [blockLength] at h
    | succ depth =>
      cases count with
      | zero => exact Nat.succ_pos _
      | succ count =>
        have hrest := ih (Nat.lt_of_succ_lt_succ h)
        have hline := depthAfter_succ line depth
        rw [List.take_succ_cons, closings_cons, openings_cons]
        omega

/-- At its end a block is closed, or it takes all the lines and is closed nowhere. -/
theorem closings_take_blockLength (depth : Nat) (lines : List String) :
    let length := blockLength depth lines
    closings (lines.take length) = openings (lines.take length) + depth ∨
      length = lines.length ∧
        ∀ count, closings (lines.take count) < openings (lines.take count) + depth := by
  induction lines generalizing depth with
  | nil =>
    cases depth with
    | zero => exact .inl rfl
    | succ depth => exact .inr ⟨rfl, fun count => by simp [closings, openings]⟩
  | cons line lines ih =>
    cases depth with
    | zero => exact .inl rfl
    | succ depth =>
      have hline := depthAfter_succ line depth
      rcases ih (depthAfter line (depth + 1)) with hclosed | ⟨hlength, hopen⟩
      · refine .inl ?_
        simp only [blockLength, List.take_succ_cons, closings_cons, openings_cons]
        omega
      · refine .inr ⟨congrArg Nat.succ hlength, fun count => ?_⟩
        cases count with
        | zero => exact Nat.succ_pos _
        | succ count =>
          have hrest := hopen count
          rw [List.take_succ_cons, closings_cons, openings_cons]
          omega

end Lengths

section Ends

variable {lines : List String} {opening inner stop : Nat}

theorem extract_behind (lines : List String) (opening count : Nat) :
    lines.extract (opening + 1) (opening + 1 + count) = (lines.drop (opening + 1)).take count := by
  rw [List.extract_eq_take_drop, Nat.add_sub_cancel_left]

/-- The lines between two places, cut at a place between them. -/
theorem extract_append_extract (lines : List String) {start middle : Nat} (h : start ≤ middle)
    (h' : middle ≤ stop) :
    lines.extract start middle ++ lines.extract middle stop = lines.extract start stop := by
  have hlength : stop - start = (middle - start) + (stop - middle) := by omega
  have hdrop : start + (middle - start) = middle := by omega
  simp only [List.extract_eq_take_drop]
  rw [hlength, List.take_add, List.drop_drop, hdrop]

theorem extract_one (lines : List String) (index : Nat) :
    lines.extract index (index + 1) = lines[index]?.toList := by
  rw [List.extract_eq_take_drop, Nat.add_sub_cancel_left, List.take_one, List.head?_drop]

theorem blockEnd_le_length (h : opening < lines.length) :
    blockEnd lines opening ≤ lines.length := by
  have hlength := blockLength_le_length 1 (lines.drop (opening + 1))
  rw [List.length_drop] at hlength
  rw [blockEnd]
  omega

/-- Every cut inside a block leaves it open. -/
theorem closings_le_of_lt_blockEnd (h : opening < stop) (hstop : stop < blockEnd lines opening) :
    closings (lines.extract (opening + 1) stop) ≤ openings (lines.extract (opening + 1) stop) := by
  obtain ⟨count, rfl⟩ := Nat.exists_eq_add_of_le (Nat.succ_le_of_lt h)
  have hcount : count < blockLength 1 (lines.drop (opening + 1)) := Nat.lt_of_add_lt_add_left hstop
  rw [Nat.succ_eq_add_one, extract_behind]
  exact Nat.le_of_lt_succ (closings_lt_of_lt_blockLength hcount)

/-- A block ends where it is closed, or with the lines if it is closed nowhere. -/
theorem closesBlock_blockEnd_or (h : opening < lines.length) :
    ClosesBlock lines opening (blockEnd lines opening) ∨
      blockEnd lines opening = lines.length ∧ ¬ ∃ stop, ClosesBlock lines opening stop := by
  rcases closings_take_blockLength 1 (lines.drop (opening + 1)) with hclosed | ⟨hlength, hopen⟩
  · refine .inl ⟨by rw [blockEnd]; omega, ?_⟩
    rw [blockEnd, extract_behind]
    exact hclosed
  · refine .inr ⟨?_, ?_⟩
    · rw [blockEnd, hlength, List.length_drop]
      omega
    · rintro ⟨stop, hstop, hcounts⟩
      obtain ⟨count, rfl⟩ := Nat.exists_eq_add_of_le (Nat.succ_le_of_lt hstop)
      rw [Nat.succ_eq_add_one, extract_behind] at hcounts
      exact absurd hcounts (Nat.ne_of_lt (hopen count))

theorem isLeast_blockEnd (h : ClosesBlock lines opening (blockEnd lines opening)) :
    IsLeast {stop | ClosesBlock lines opening stop} (blockEnd lines opening) := by
  refine ⟨h, fun stop hstop => ?_⟩
  by_contra hlt
  have hopen := closings_le_of_lt_blockEnd hstop.1 (Nat.lt_of_not_le hlt)
  have hcounts := hstop.2
  omega

/-- The line before the end of a closed block closes a conditional. -/
theorem exists_closing_line (h : ClosesBlock lines opening (blockEnd lines opening)) :
    ∃ line, lines[blockEnd lines opening - 1]? = some line ∧ closesConditional line := by
  obtain ⟨hbehind, hcounts⟩ := h
  have hsome : opening + 1 < blockEnd lines opening := by
    by_contra hnone
    have hend : blockEnd lines opening = opening + 1 := by omega
    simp [hend, closings, openings] at hcounts
  have hbefore : blockEnd lines opening - 1 < blockEnd lines opening := by omega
  have hopen := closings_le_of_lt_blockEnd (by omega) hbefore
  have hcut := extract_append_extract lines (Nat.le_sub_one_of_lt hsome) (Nat.le_of_lt hbefore)
  rw [← hcut, closings_append, openings_append] at hcounts
  have hlast := extract_one lines (blockEnd lines opening - 1)
  rw [Nat.sub_add_cancel (by omega)] at hlast
  rw [hlast] at hcounts
  exact exists_closesConditional (by omega)

/-- A block that is opened inside another one ends with it at the latest. At the end of the outer
block the inner one would otherwise be open, and the outer one was open where the inner one began. -/
theorem blockEnd_le_blockEnd {line : String} (hopening : opening < lines.length)
    (h : opening < inner) (hinner : inner < blockEnd lines opening)
    (hline : lines[inner]? = some line) (hopens : opensConditional line) :
    blockEnd lines inner ≤ blockEnd lines opening := by
  have hlength := blockEnd_le_length hopening
  have hinnerEnd : blockEnd lines inner ≤ lines.length := blockEnd_le_length (by omega)
  by_contra hbeyond
  rcases closesBlock_blockEnd_or hopening with ⟨_, hclosed⟩ | ⟨hend, _⟩
  · have hbefore := closings_le_of_lt_blockEnd h hinner
    have hbehind := closings_le_of_lt_blockEnd hinner (Nat.lt_of_not_le hbeyond)
    have hcut : lines.extract (opening + 1) inner ++ ([line] ++
        lines.extract (inner + 1) (blockEnd lines opening)) =
          lines.extract (opening + 1) (blockEnd lines opening) := by
      have hinnerLine : [line] = lines.extract inner (inner + 1) := by rw [extract_one, hline]; rfl
      rw [hinnerLine, extract_append_extract _ (by omega) (by omega),
        extract_append_extract _ (by omega) (by omega)]
    have hone : openings [line] = 1 := by simp [openings, hopens]
    have hnone : closings [line] = 0 := by simp [closings, not_closesConditional hopens]
    rw [← hcut, closings_append, closings_append, openings_append, openings_append] at hclosed
    omega
  · omega

end Ends

/-- A block ends behind the line that closes it. The end is the least place behind the opening line
at which the block is closed, and the number of lines if there is none. The block is open at every
place before, and no block that is opened inside goes beyond its end. -/
theorem blockEnd_matches_and_nests (lines : List String) (opening : Nat)
    (h : opening < lines.length) :
    ((∃ stop, ClosesBlock lines opening stop) →
      IsLeast {stop | ClosesBlock lines opening stop} (blockEnd lines opening) ∧
        ∃ line, lines[blockEnd lines opening - 1]? = some line ∧ closesConditional line) ∧
    ((¬ ∃ stop, ClosesBlock lines opening stop) → blockEnd lines opening = lines.length) ∧
    (∀ stop, opening < stop → stop < blockEnd lines opening →
      closings (lines.extract (opening + 1) stop) ≤
        openings (lines.extract (opening + 1) stop)) ∧
    ∀ inner line, opening < inner → inner < blockEnd lines opening →
      lines[inner]? = some line → opensConditional line →
        blockEnd lines inner ≤ blockEnd lines opening := by
  refine ⟨fun hcloses => ?_, fun hnever => ?_, fun stop => closings_le_of_lt_blockEnd,
    fun inner line => blockEnd_le_blockEnd h⟩
  · have hend : ClosesBlock lines opening (blockEnd lines opening) :=
      (closesBlock_blockEnd_or h).resolve_right fun hopen => hopen.2 hcloses
    exact ⟨isLeast_blockEnd hend, exists_closing_line hend⟩
  · rcases closesBlock_blockEnd_or h with hcloses | ⟨hend, _⟩
    · exact absurd ⟨_, hcloses⟩ hnever
    · exact hend

/-- A block with another one inside it, and one behind it that is never closed. -/
theorem blockEnd_matches_and_nests_innerBlock :
    let lines :=
      ["#ifndef A\n", "#define A\n", " #if B\n", "\t#endif\n", "#endif // A\n", "#ifdef C\n"]
    0 < lines.length ∧ IsLeast {stop | ClosesBlock lines 0 stop} 5 ∧
      blockEnd lines 2 = 4 ∧ blockEnd lines 2 ≤ 5 ∧
      5 < lines.length ∧ blockEnd lines 5 = lines.length := by
  intro lines
  have hend : blockEnd lines 0 = 5 := by decide +kernel
  obtain ⟨hcloses, _, _, hnests⟩ := blockEnd_matches_and_nests lines 0 (by decide)
  have hleast := (hcloses ⟨5, by decide +kernel⟩).1
  have hinner := hnests 2 " #if B\n" (by decide) (by decide +kernel) rfl (by decide +kernel)
  rw [hend] at hleast hinner
  have hopen : ¬ ∃ stop, ClosesBlock lines 5 stop := by
    rintro ⟨stop, _, hcounts⟩
    have hnone : lines.extract 6 stop = [] := by simp [lines]
    simp [hnone, closings, openings] at hcounts
  have hlast := (blockEnd_matches_and_nests lines 5 (by decide)).2.1 hopen
  exact ⟨by decide, hleast, by decide +kernel, hinner, by decide, hlast⟩

end ShaderInline
