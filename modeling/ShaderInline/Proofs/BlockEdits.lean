import ShaderInline.Proofs.Blocks
import ShaderInline.Proofs.Lines

/-!
# Edits inside a guarded block

What stands inside a guarded block matters to the nesting of conditionals alone. Blank lines change
no nesting, so a block that is emptied is ended by the same line as before. It makes no difference
to the once guard of a file either, since the line that opens the block is no comment.
-/
namespace ShaderInline

/-- How many lines there are before the one that closes a conditional that is `depth` levels deep.
All of them are if none does. -/
def innerLength : Nat → List String → Nat
  | 0, _ => 0
  | _ + 1, [] => 0
  | depth + 1, line :: lines =>
    if depthAfter line (depth + 1) = 0 then 0
    else innerLength (depthAfter line (depth + 1)) lines + 1
termination_by structural _ lines => lines

/-- Whether blank lines stand in the place of those between the second line of the block that begins
at a line and the line that closes it. Where no line does, there may be any number of them. -/
def Text.EmptiesBlock (number : Nat) (text emptied : String) : Prop :=
  ∃ blanks,
    let inner := (lines text).drop (number + 1)
    let rest := inner.drop (innerLength 1 inner)
    lines emptied = (lines text).take (number + 1) ++ blanks ++ rest ∧
      (∀ line ∈ blanks, trim line = "") ∧ (blanks.length = innerLength 1 inner ∨ rest = [])

/-- The text with an empty line in the place of each of these lines. -/
def Text.emptyBlock (number : Nat) (text : String) : String :=
  let inner := (lines text).drop (number + 1)
  let length := innerLength 1 inner
  String.join ((lines text).take (number + 1) ++ List.replicate length "\n" ++ inner.drop length)

/-- Whether two lists of lines go on in the same way behind the block that they begin with. -/
def SameBehindBlock (following following' : List String) : Prop :=
  ∃ block block' rest, following = block ++ rest ∧ following' = block' ++ rest ∧
    block.length = blockLength 1 following ∧ block'.length = blockLength 1 following' ∧
    (block'.length = block.length ∨ rest = [])

section Lines

variable {line opening defining name : String} {lines following inner blanks : List String}
  {depth : Nat}

theorem depthAfter_of_blank (h : Text.trim line = "") (depth : Nat) :
    depthAfter line depth = depth := by
  simp [depthAfter, h, beginsWith]

theorem blockLength_append_of_blank (h : ∀ line ∈ blanks, Text.trim line = "") (depth : Nat)
    (rest : List String) :
    blockLength (depth + 1) (blanks ++ rest) = blanks.length + blockLength (depth + 1) rest := by
  induction blanks with
  | nil => simp
  | cons line blanks ih =>
    have hline := depthAfter_of_blank (h line List.mem_cons_self) (depth + 1)
    have hrest := ih fun other hmem => h other (List.mem_cons_of_mem _ hmem)
    rw [List.cons_append, blockLength, hline, hrest, List.length_cons]
    omega

/-- The second line of a guarded block. -/
theorem exists_defining_of_openedGuard? (h : openedGuard? opening following = some name) :
    ∃ defining inner, following = defining :: inner ∧ Text.trim defining = "#define " ++ name := by
  unfold openedGuard? at h
  split at h
  case h_1 tested next rest htested =>
    split at h
    case isTrue hdefines =>
      cases h
      exact ⟨next, rest, rfl, hdefines⟩
    case isFalse => cases h
  case h_2 => cases h

theorem openedGuard?_cons (opening defining : String) (inner other : List String) :
    openedGuard? opening (defining :: inner) = openedGuard? opening (defining :: other) := by
  unfold openedGuard?
  cases testedName? opening <;> rfl

theorem depthAfter_of_defines (h : Text.trim defining = "#define " ++ name) (depth : Nat) :
    depthAfter defining depth = depth := by
  simp [depthAfter, h, beginsWith]

/-- The line that closes a conditional ends it at any depth that is no greater. -/
theorem innerLength_spec (depth : Nat) (lines : List String) :
    (lines.drop (innerLength (depth + 1) lines) = [] ∧
        blockLength (depth + 1) lines = lines.length) ∨
      ∃ closing after, lines.drop (innerLength (depth + 1) lines) = closing :: after ∧
        blockLength (depth + 1) lines = innerLength (depth + 1) lines + 1 ∧
        depthAfter closing 1 = 0 := by
  induction lines generalizing depth with
  | nil => exact .inl ⟨rfl, rfl⟩
  | cons line lines ih =>
    by_cases hcloses : depthAfter line (depth + 1) = 0
    · have hclosing : depthAfter line 1 = 0 :=
        Nat.le_zero.mp (hcloses ▸ depthAfter_mono line (by omega))
      refine .inr ⟨line, lines, ?_, ?_, hclosing⟩
      · simp [innerLength, hcloses]
      · simp [innerLength, blockLength, hcloses]
    · obtain ⟨deep, hdeep⟩ := Nat.exists_eq_add_one_of_ne_zero hcloses
      have hinner : innerLength (depth + 1) (line :: lines) = innerLength (deep + 1) lines + 1 := by
        rw [innerLength, if_neg hcloses, hdeep]
      rw [hinner, List.drop_succ_cons, blockLength, hdeep, List.length_cons]
      rcases ih deep with ⟨hnone, hlength⟩ | ⟨closing, after, hclosing, hlength, hcloses⟩
      · exact .inl ⟨hnone, by omega⟩
      · exact .inr ⟨closing, after, hclosing, by omega, hcloses⟩

/-- A block that is emptied ends where it did. -/
theorem sameBehindBlock_of_blank (hdefines : Text.trim defining = "#define " ++ name)
    (hblanks : ∀ line ∈ blanks, Text.trim line = "")
    (hlength : blanks.length = innerLength 1 inner ∨ inner.drop (innerLength 1 inner) = []) :
    SameBehindBlock (defining :: inner)
      (defining :: (blanks ++ inner.drop (innerLength 1 inner))) := by
  have hinner := List.take_append_drop (innerLength 1 inner) inner
  have hdepth := depthAfter_of_defines hdefines 1
  have hfirst : ∀ rest, blockLength 1 (defining :: rest) = blockLength 1 rest + 1 := by
    intro rest
    rw [blockLength, hdepth]
  have hemptied := blockLength_append_of_blank hblanks 0 (inner.drop (innerLength 1 inner))
  rcases innerLength_spec 0 inner with ⟨hnone, hblock⟩ | ⟨closing, after, hclosing, hblock, hcloses⟩
  · refine ⟨defining :: inner, defining :: blanks, [], by simp, by simp [hnone], ?_, ?_, .inr rfl⟩
    · rw [hfirst, hblock, List.length_cons]
    · rw [hfirst, hemptied, hnone, List.length_cons]
      simp [blockLength]
  · have hsame : blanks.length = innerLength 1 inner := by
      rcases hlength with hlength | hnone
      · exact hlength
      · rw [hclosing] at hnone
        cases hnone
    have hclosed : blockLength 1 (closing :: after) = 1 := by
      rw [blockLength, hcloses, blockLength]
    rw [hclosing] at hinner
    have htake : (inner.take (innerLength 1 inner)).length = innerLength 1 inner := by
      have htotal := congrArg List.length hinner
      rw [List.length_append, List.length_take] at htotal
      rw [List.length_take]
      simp at htotal
      omega
    refine ⟨defining :: (inner.take (innerLength 1 inner) ++ [closing]),
      defining :: (blanks ++ [closing]), after, ?_, ?_, ?_, ?_, .inl ?_⟩
    · simp [hinner]
    · simp [hclosing]
    · rw [hfirst, hblock]
      simp [htake]
    · rw [hfirst, hemptied, hclosing, hclosed]
      simp
    · simp [htake, hsame]

/-- Lines that open no guard by the first line of the block open the same ones. -/
theorem openedGuard?_append (line opening : String) (front following following' : List String) :
    openedGuard? line (front ++ opening :: following') =
      openedGuard? line (front ++ opening :: following) := by
  cases front with
  | nil => exact openedGuard?_cons _ _ _ _
  | cons next front => exact openedGuard?_cons _ _ _ _

/-- A block that ends before a line does not depend on what is behind that line. -/
theorem blockLength_append_of_le {front : List String} (following' : List String)
    (h : blockLength depth (front ++ opening :: following) ≤ front.length) :
    blockLength depth (front ++ opening :: following') =
      blockLength depth (front ++ opening :: following) := by
  induction front generalizing depth with
  | nil =>
    cases depth with
    | zero => simp [blockLength]
    | succ depth => simp [blockLength] at h
  | cons line front ih =>
    cases depth with
    | zero => simp [blockLength]
    | succ depth =>
      simp only [List.cons_append, blockLength, List.length_cons] at h ⊢
      rw [ih (by omega)]

theorem isSignificant_of_openedGuard? (h : openedGuard? opening following = some name) :
    isSignificant (Text.trim opening) := by
  have hbegins := opensConditional_of_openedGuard? h
  rw [opensConditional, beginsWith, List.isPrefixOf_iff_prefix] at hbegins
  obtain ⟨rest, hopening⟩ := hbegins
  have hchars : Text.trim opening = "#if" ++ String.ofList rest := by
    apply String.toList_inj.mp
    simp [← hopening]
  rw [hchars]
  simp [isSignificant, beginsWith, List.isPrefixOf]

/-- The once guard of a file does not depend on what is behind the first line of a guarded block. -/
theorem Directives.guardsOnce_append (directives : Directives) {before following' : List String}
    (h : openedGuard? opening following = some name) :
    directives.guardsOnce (before ++ opening :: following') =
      directives.guardsOnce (before ++ opening :: following) := by
  have hfound : ∀ rest : List String,
      ((before ++ opening :: rest).map Text.trim).find? isSignificant =
        ((before ++ [opening]).map Text.trim).find? isSignificant := by
    intro rest
    have hparts : before ++ opening :: rest = (before ++ [opening]) ++ rest := by simp
    have hopening := isSignificant_of_openedGuard? h
    have hsome : (((before ++ [opening]).map Text.trim).find? isSignificant).isSome := by
      rw [List.find?_isSome]
      exact ⟨_, List.mem_map_of_mem (by simp), hopening⟩
    rw [hparts, List.map_append, List.find?_append, Option.or_of_isSome hsome]
  simp only [guardsOnce, hfound]

/-- A file of which a block is emptied has the same lines before the block, opens the same guard
there, and goes on in the same way behind the block. -/
theorem Text.EmptiesBlock.exists_following {number : Nat} {text emptied : String}
    {before : List String} (h : EmptiesBlock number text emptied)
    (hlines : Text.lines text = before ++ opening :: following)
    (hnumber : number = before.length + 1)
    (hopens : openedGuard? opening following = some name) :
    ∃ following', Text.lines emptied = before ++ opening :: following' ∧
      openedGuard? opening following' = some name ∧ SameBehindBlock following following' := by
  obtain ⟨blanks, hemptied, hblanks, hlength⟩ := h
  obtain ⟨defining, inner, rfl, hdefines⟩ := exists_defining_of_openedGuard? hopens
  have hparts : Text.lines text = (before ++ [opening, defining]) ++ inner := by simp [hlines]
  have hfront : (before ++ [opening, defining]).length = number + 1 := by simp [hnumber]
  have hdrop : (Text.lines text).drop (number + 1) = inner := by
    rw [hparts, ← hfront, List.drop_left]
  have htake : (Text.lines text).take (number + 1) = before ++ [opening, defining] := by
    rw [hparts, ← hfront, List.take_left]
  rw [hdrop] at hlength
  rw [hdrop, htake] at hemptied
  refine ⟨defining :: (blanks ++ inner.drop (innerLength 1 inner)), ?_, ?_, ?_⟩
  · simp [hemptied]
  · rw [← hopens]
    exact openedGuard?_cons _ _ _ _
  · exact sameBehindBlock_of_blank hdefines hblanks hlength

theorem innerLength_le_length (depth : Nat) (lines : List String) :
    innerLength depth lines ≤ lines.length := by
  induction lines generalizing depth with
  | nil => cases depth <;> exact Nat.le_refl _
  | cons line lines ih =>
    cases depth with
    | zero => exact Nat.zero_le _
    | succ depth =>
      rw [innerLength]
      split
      · exact Nat.zero_le _
      · exact Nat.succ_le_succ (ih _)

/-- Lines within a text can be replaced by empty ones. -/
theorem Text.AreLines.replace_newlines {before middle following : List String}
    (h : AreLines (before ++ (middle ++ following))) :
    AreLines (before ++ (List.replicate middle.length "\n" ++ following)) := by
  induction before with
  | nil =>
    induction middle with
    | nil => exact h
    | cons line middle ih => exact ⟨isLine_newline, fun _ => by decide, ih h.2.2⟩
  | cons line before ih =>
    refine ⟨h.1, fun hne => h.2.1 fun hnil => hne ?_, ih h.2.2⟩
    simp_all

theorem Text.emptiesBlock_emptyBlock (number : Nat) (text : String) :
    EmptiesBlock number text (emptyBlock number text) := by
  let inner := (lines text).drop (number + 1)
  let length := innerLength 1 inner
  have hlength : (inner.take length).length = length :=
    List.length_take_of_le (innerLength_le_length 1 inner)
  have hlines := areLines_lines text
  rw [← List.take_append_drop (number + 1) (lines text),
    ← List.take_append_drop length (List.drop _ _)] at hlines
  have hemptied := hlines.replace_newlines
  rw [hlength, ← List.append_assoc] at hemptied
  refine ⟨List.replicate length "\n", lines_join hemptied, fun line hmem => ?_,
    .inl List.length_replicate⟩
  rw [List.eq_of_mem_replicate hmem]
  decide

end Lines

end ShaderInline
