import ShaderInline.Proofs.Blocks
import ShaderInline.Proofs.Contributions

/-!
# The frontier of a walk

The walk of a file keeps a frontier. Behind it every line has its place among the contributions, and
no block that was to be passed over reaches beyond the lines that the walk is still passing over.
That blocks nest carries this over the blocks that are opened inside such a block. The guards that
are known at the frontier are those that the contributions have opened.
-/
namespace ShaderInline

variable {σ : Type}

namespace Contribution

/-- Whether a line of a file has its place among the contributions, even if it added nothing. -/
def HasPlace (parts : List Contribution) (file : Path) (number : Nat) : Prop :=
  ∃ part ∈ parts, part.place.head? = some (file, number)

/-- What was contributed in front of a line. -/
def before (parts : List Contribution) (file : Path) (number : Nat) : List Contribution :=
  parts.takeWhile fun part => part.place.head? ≠ some (file, number)

variable {parts more : List Contribution} {own : Contribution} {file : Path} {number : Nat}

theorem HasPlace.append (h : HasPlace parts file number) (more : List Contribution) :
    HasPlace (parts ++ more) file number := by
  obtain ⟨part, hpart, hplace⟩ := h
  exact ⟨part, List.mem_append_left _ hpart, hplace⟩

theorem hasPlace_append :
    HasPlace (parts ++ more) file number ↔ HasPlace parts file number ∨ HasPlace more file number := by
  simp only [HasPlace, List.mem_append, or_and_right, exists_or]

/-- What comes later is not in front of a line that has its place. -/
theorem before_append (h : HasPlace parts file number) :
    before (parts ++ more) file number = before parts file number := by
  obtain ⟨part, hpart, hplace⟩ := h
  induction parts with
  | nil => cases hpart
  | cons first parts ih =>
    by_cases hfirst : first.place.head? = some (file, number)
    · simp [before, hfirst]
    · have hrest : part ∈ parts := by
        rcases List.mem_cons.mp hpart with rfl | hrest
        · exact absurd hplace hfirst
        · exact hrest
      simpa [before, hfirst] using ih hrest

theorem before_of_not_hasPlace (h : ¬ HasPlace parts file number)
    (hown : own.place.head? = some (file, number)) :
    before (parts ++ own :: more) file number = parts := by
  have hparts : ∀ part ∈ parts, part.place.head? ≠ some (file, number) :=
    fun part hpart hplace => h ⟨part, hpart, hplace⟩
  rw [before, List.takeWhile_append_of_pos (by simpa using hparts),
    List.takeWhile_cons_of_neg (by simp [hown]), List.append_nil]

end Contribution

open Contribution (HasPlace before)

namespace Run

/-- Whether lines of a file are a block: the first of them opens a named guard and is no import
line, and the last one ends the conditional or the file. -/
def IsBlock (run : Run σ) (directives : Directives) (file : Path) (name : String)
    (first last : Nat) : Prop :=
  ∃ line following, run.Walks file first (line :: following) ∧
    ImportReading.ofLine directives line = .absent ∧ openedGuard? line following = some name ∧
    last = first + blockLength 1 following

/-- Whether a line that opens a guard of this name was copied. -/
def HasOpened (run : Run σ) (directives : Directives) (parts : List Contribution)
    (name : String) : Prop :=
  ∃ part ∈ parts, ∃ file first last, part.Copies file first ∧
    run.IsBlock directives file name first last

/-- Whether lines of a file are a block whose guard had been opened further up. -/
def SkipsBlock (run : Run σ) (directives : Directives) (parts : List Contribution) (file : Path)
    (first last : Nat) : Prop :=
  HasPlace parts file first ∧ ∃ name, run.IsBlock directives file name first last ∧
    run.HasOpened directives (before parts file first) name

/-- Whether a line of a file lies in such a block. -/
def Skips (run : Run σ) (directives : Directives) (parts : List Contribution) (file : Path)
    (number : Nat) : Prop :=
  ∃ first last, run.SkipsBlock directives parts file first last ∧ first ≤ number ∧ number ≤ last

variable {run : Run σ} {directives : Directives} {parts more : List Contribution} {file : Path}
  {name line : String} {lines : List String} {number first last : Nat}

theorem Walks.isBlock_iff (h : run.Walks file first (line :: lines)) (hnodup : run.identities.Nodup) :
    run.IsBlock directives file name first last ↔
      ImportReading.ofLine directives line = .absent ∧ openedGuard? line lines = some name ∧
        last = first + blockLength 1 lines := by
  constructor
  · rintro ⟨line', lines', hat, hline, hguard, hlast⟩
    obtain ⟨rfl, rfl⟩ := List.cons.inj (hat.unique h hnodup)
    exact ⟨hline, hguard, hlast⟩
  · rintro ⟨hline, hguard, hlast⟩
    exact ⟨line, lines, h, hline, hguard, hlast⟩

theorem IsBlock.first_pos (h : run.IsBlock directives file name first last) : 1 ≤ first := by
  obtain ⟨_, _, ⟨_, _, _, _, rfl⟩, _⟩ := h
  omega

theorem hasOpened_append :
    run.HasOpened directives (parts ++ more) name ↔
      run.HasOpened directives parts name ∨ run.HasOpened directives more name := by
  simp only [HasOpened, List.mem_append, or_and_right, exists_or]

theorem SkipsBlock.append (h : run.SkipsBlock directives parts file first last)
    (more : List Contribution) : run.SkipsBlock directives (parts ++ more) file first last := by
  obtain ⟨hplace, name, hblock, hopened⟩ := h
  refine ⟨hplace.append more, name, hblock, ?_⟩
  rwa [Contribution.before_append hplace]

theorem SkipsBlock.of_append (h : run.SkipsBlock directives (parts ++ more) file first last)
    (hplace : HasPlace parts file first) : run.SkipsBlock directives parts file first last := by
  obtain ⟨_, name, hblock, hopened⟩ := h
  rw [Contribution.before_append hplace] at hopened
  exact ⟨hplace, name, hblock, hopened⟩

theorem Skips.append (h : run.Skips directives parts file number) (more : List Contribution) :
    run.Skips directives (parts ++ more) file number := by
  obtain ⟨first, last, hblock, hrange⟩ := h
  exact ⟨first, last, hblock.append more, hrange⟩

/-- Whether a line has its place, as all lines before it have, and what became of it. -/
def Settles (run : Run σ) (directives : Directives) (parts : List Contribution) (file : Path)
    (number : Nat) (line : String) : Prop :=
  (∀ n, 1 ≤ n → n ≤ number → HasPlace parts file n) ∧
  ((∃ part ∈ parts, part.Copies file number) ∨
    (∃ part ∈ parts, part.IsAt file number ∧ ¬ part.Copies file number) ∧
      (run.Skips directives parts file number ∨
        (∃ importText trailing, ImportReading.ofLine directives line =
          .directive importText trailing) ∧ ¬ run.Skips directives parts file number))

/-- What became of a line does not depend on what comes later. -/
theorem Settles.append (h : run.Settles directives parts file number line)
    (more : List Contribution) : run.Settles directives (parts ++ more) file number line := by
  obtain ⟨hplaces, hfate⟩ := h
  refine ⟨fun n hpos hle => (hplaces n hpos hle).append more, ?_⟩
  rcases hfate with ⟨part, hpart, hcopied⟩ | ⟨⟨part, hpart, hat⟩, hfate⟩
  · exact .inl ⟨part, List.mem_append_left _ hpart, hcopied⟩
  · refine .inr ⟨⟨part, List.mem_append_left _ hpart, hat⟩, ?_⟩
    rcases hfate with hskips | ⟨himport, hkept⟩
    · exact .inl (hskips.append more)
    · refine .inr ⟨himport, ?_⟩
      rintro ⟨first, last, hblock, hfirst, hlast⟩
      have hplace := hplaces first hblock.2.choose_spec.1.first_pos hfirst
      exact hkept ⟨first, last, hblock.of_append hplace, hfirst, hlast⟩

end Run

/-- What is known of a file when the walk has come to a line of it. -/
structure Frontier (final : Run σ) (directives : Directives) (parts : List Contribution)
    (file : Path) (lines : List String) (number skip : Nat) : Prop where
  walked : ∀ n, 1 ≤ n → n < number → HasPlace parts file n
  ahead : ∀ n, number ≤ n → ¬ HasPlace parts file n
  ended : ∀ first last, final.SkipsBlock directives parts file first last → first < number →
    last < number + skip
  skipped : ∀ n, number ≤ n → n < number + skip → final.Skips directives parts file n
  block : ∃ depth, skip = blockLength depth lines

section Frontier

variable {final run middle : Run σ} {directives : Directives} {parts more : List Contribution}
  {own : Contribution} {above : List (Path × Nat)} {file : Path} {line : String}
  {lines : List String} {number skip left : Nat}

/-- The walk goes on behind a line if the block that the line begins ends in time. -/
theorem Frontier.next (h : Frontier final directives parts file (line :: lines) number skip)
    (hown : own.place.head? = some (file, number))
    (hahead : ∀ n, number < n → ¬ HasPlace (own :: more) file n)
    (hended : ∀ name last, final.IsBlock directives file name number last →
      final.HasOpened directives parts name → last ≤ number + left)
    (hskip : skip ≤ left + 1)
    (hskipped : ∀ n, number < n → n ≤ number + left →
      final.Skips directives (parts ++ own :: more) file n)
    (hblock : ∃ depth, left = blockLength depth lines) :
    Frontier final directives (parts ++ own :: more) file lines (number + 1) left where
  walked := by
    intro n hpos hlt
    rcases Nat.lt_succ_iff_lt_or_eq.mp hlt with hlt | rfl
    · exact (h.walked n hpos hlt).append _
    · exact ⟨own, by simp, hown⟩
  ahead := by
    intro n hle
    rw [Contribution.hasPlace_append]
    rintro (hplace | hplace)
    · exact h.ahead n (by omega) hplace
    · exact hahead n (by omega) hplace
  ended := by
    intro first last hskips hlt
    rcases Nat.lt_succ_iff_lt_or_eq.mp hlt with hlt | rfl
    · have hpos := hskips.2.choose_spec.1.first_pos
      have hlast := h.ended first last (hskips.of_append (h.walked first hpos hlt)) hlt
      omega
    · obtain ⟨_, name, hblock, hopened⟩ := hskips
      rw [Contribution.before_of_not_hasPlace (h.ahead first (Nat.le_refl _)) hown] at hopened
      have hlast := hended name last hblock hopened
      omega
  skipped := by
    intro n hle hlt
    exact hskipped n (by omega) (by omega)
  block := hblock

theorem Run.not_hasOpened (hcopied : ∀ file n, ¬ own.Copies file n) (name : String) :
    ¬ final.HasOpened directives [own] name := by
  rintro ⟨part, hpart, file, first, _, hcopy, _⟩
  rw [List.mem_singleton.mp hpart] at hcopy
  exact hcopied file first hcopy

theorem Run.hasOpened_copied {place : List (Path × Nat)} {name : String} :
    final.HasOpened directives [⟨place, [.source file number]⟩] name ↔
      ∃ last, final.IsBlock directives file name number last := by
  constructor
  · rintro ⟨part, hpart, other, first, last, hcopy, hblock⟩
    rw [List.mem_singleton.mp hpart] at hcopy
    cases List.mem_singleton.mp hcopy
    exact ⟨last, hblock⟩
  · rintro ⟨last, hblock⟩
    exact ⟨_, List.mem_singleton_self _, file, number, last, List.mem_singleton_self _, hblock⟩

/-- An import line that is looked at lies in no block that is passed over. -/
theorem Frontier.not_skips (h : Frontier final directives parts file (line :: lines) number 0)
    (hat : final.Walks file number (line :: lines)) (hnodup : final.identities.Nodup)
    {importText : String} {trailing : Option String}
    (hline : ImportReading.ofLine directives line = .directive importText trailing) :
    ¬ final.Skips directives (parts ++ more) file number := by
  rintro ⟨first, last, hskips, hfirst, hlast⟩
  obtain ⟨name, hblock, _⟩ := hskips.2
  rcases Nat.lt_or_eq_of_le hfirst with hlt | rfl
  · have hended := h.ended first last (hskips.of_append (h.walked first hblock.first_pos hlt)) hlt
    omega
  · have habsent := ((hat.isBlock_iff hnodup).mp hblock).1
    rw [hline] at habsent
    cases habsent

theorem Contribution.not_hasPlace_line (above : List (Path × Nat)) (origins : List Origin) {n : Nat}
    (hlt : number < n) : ¬ HasPlace [⟨(file, number) :: above, origins⟩] file n := by
  rintro ⟨part, hpart, hplace⟩
  rw [List.mem_singleton.mp hpart] at hplace
  cases hplace
  exact Nat.lt_irrefl _ hlt

theorem Frontier.settles_skipped
    (hnext : Frontier final directives (parts ++ [⟨(file, number) :: above, []⟩]) file lines
      (number + 1) left)
    (hskips : final.Skips directives (parts ++ [⟨(file, number) :: above, []⟩]) file number) :
    final.Settles directives (parts ++ [⟨(file, number) :: above, []⟩]) file number line := by
  refine ⟨fun n hpos hle => hnext.walked n hpos (by omega),
    .inr ⟨⟨⟨(file, number) :: above, []⟩, by simp, ?_⟩, .inl hskips⟩⟩
  simp [Contribution.IsAt, Contribution.Copies]

/-- Inside a block that is passed over. A block that begins there ends with it at the latest. -/
theorem Frontier.next_inBlock
    (h : Frontier final directives parts file (line :: lines) number (left + 1))
    (hat : final.Walks file number (line :: lines)) (hnodup : final.identities.Nodup)
    (above : List (Path × Nat)) :
    Frontier final directives (parts ++ [⟨(file, number) :: above, []⟩]) file lines (number + 1)
        left ∧
      final.Settles directives (parts ++ [⟨(file, number) :: above, []⟩]) file number line := by
  obtain ⟨depth, hdepth⟩ := h.block
  obtain ⟨_, _, hleft⟩ := eq_blockLength_of_succ_eq hdepth
  have hnext : Frontier final directives (parts ++ [⟨(file, number) :: above, []⟩]) file lines
      (number + 1) left := by
    refine h.next rfl (fun n => Contribution.not_hasPlace_line above []) ?_ (Nat.le_refl _) ?_
      ⟨_, hleft⟩
    · intro name last hblock _
      obtain ⟨_, hguard, rfl⟩ := (hat.isBlock_iff hnodup).mp hblock
      have hnested := blockLength_le_of_openedGuard? hguard depth
      omega
    · intro n hlt hle
      exact (h.skipped n (by omega) (by omega)).append _
  have hskips := h.skipped number (Nat.le_refl _) (by omega)
  exact ⟨hnext, hnext.settles_skipped (hskips.append _)⟩

/-- At the beginning of a block that is passed over. -/
theorem Frontier.next_block (h : Frontier final directives parts file (line :: lines) number 0)
    (hat : final.Walks file number (line :: lines)) (hnodup : final.identities.Nodup)
    {name : String} (hblock : final.IsBlock directives file name number (number + left))
    (hopened : final.HasOpened directives parts name) (hleft : left = blockLength 1 lines)
    (above : List (Path × Nat)) :
    Frontier final directives (parts ++ [⟨(file, number) :: above, []⟩]) file lines (number + 1)
        left ∧
      final.Settles directives (parts ++ [⟨(file, number) :: above, []⟩]) file number line := by
  have hskips : final.SkipsBlock directives (parts ++ [⟨(file, number) :: above, []⟩]) file number
      (number + left) := by
    refine ⟨⟨_, List.mem_append_right _ (List.mem_singleton_self _), rfl⟩, name, hblock, ?_⟩
    rwa [Contribution.before_of_not_hasPlace (h.ahead number (Nat.le_refl _)) rfl]
  have hnext : Frontier final directives (parts ++ [⟨(file, number) :: above, []⟩]) file lines
      (number + 1) left := by
    refine h.next rfl (fun n => Contribution.not_hasPlace_line above []) ?_ (by omega) ?_
      ⟨1, hleft⟩
    · intro other last hother _
      obtain ⟨_, _, rfl⟩ := (hat.isBlock_iff hnodup).mp hother
      omega
    · intro n hlt hle
      exact ⟨number, _, hskips, by omega, hle⟩
  exact ⟨hnext, hnext.settles_skipped ⟨number, _, hskips, Nat.le_refl _, by omega⟩⟩

/-- At a line that is copied, because it begins no block that is to be passed over. -/
theorem Frontier.next_copied (h : Frontier final directives parts file (line :: lines) number 0)
    (hkept : ∀ name last, final.IsBlock directives file name number last →
      ¬ final.HasOpened directives parts name)
    (above : List (Path × Nat)) :
    Frontier final directives (parts ++ [⟨(file, number) :: above, [.source file number]⟩]) file
        lines (number + 1) 0 ∧
      final.Settles directives (parts ++ [⟨(file, number) :: above, [.source file number]⟩]) file
        number line := by
  have hnext : Frontier final directives
      (parts ++ [⟨(file, number) :: above, [.source file number]⟩]) file lines (number + 1) 0 := by
    refine h.next rfl (fun n => Contribution.not_hasPlace_line above _) ?_ (by omega) (by omega)
      ⟨0, by simp [blockLength]⟩
    intro name last hblock hopened
    exact absurd hopened (hkept name last hblock)
  refine ⟨hnext, fun n hpos hle => hnext.walked n hpos (by omega),
    .inl ⟨⟨(file, number) :: above, [.source file number]⟩, by simp, ?_⟩⟩
  simp [Contribution.Copies]

/-- At an import line, which is acted on where the walk looks at it. -/
theorem Frontier.next_import (h : Frontier final directives parts file (line :: lines) number 0)
    (hat : final.Walks file number (line :: lines)) (hnodup : final.identities.Nodup)
    {importText : String} {trailing : Option String}
    (hline : ImportReading.ofLine directives line = .directive importText trailing)
    (hown : own.place = (file, number) :: above) (hcopied : ¬ own.Copies file number)
    (hahead : ∀ n, number < n → ¬ HasPlace (own :: more) file n) :
    Frontier final directives (parts ++ own :: more) file lines (number + 1) 0 ∧
      final.Settles directives (parts ++ own :: more) file number line := by
  have hnext : Frontier final directives (parts ++ own :: more) file lines (number + 1) 0 := by
    refine h.next (by rw [hown]; rfl) hahead ?_ (by omega) (by omega) ⟨0, by simp [blockLength]⟩
    intro name last hblock _
    have habsent := ((hat.isBlock_iff hnodup).mp hblock).1
    rw [hline] at habsent
    cases habsent
  refine ⟨hnext, fun n hpos hle => hnext.walked n hpos (by omega), .inr ⟨⟨own, by simp, ?_⟩, .inr ?_⟩⟩
  · exact ⟨by simp [Contribution.IsAt, hown], hcopied⟩
  · exact ⟨⟨importText, trailing, hline⟩, h.not_skips hat hnodup hline⟩

end Frontier

/-- Whether the contributions tell which named guards a run knows. -/
def Run.TellsGuards (final run : Run σ) (directives : Directives) (parts : List Contribution) :
    Prop :=
  ∀ name, run.state.namedGuards.contains name ↔ final.HasOpened directives parts name

theorem Run.TellsGuards.of_eq {final run after : Run σ} {directives : Directives}
    {parts : List Contribution} (h : final.TellsGuards run directives parts)
    (hguards : after.state.namedGuards = run.state.namedGuards) :
    final.TellsGuards after directives parts := by
  intro name
  rw [hguards]
  exact h name

/-- A contribution without a copied line opens no guard. -/
theorem Run.TellsGuards.append {final run : Run σ} {directives : Directives}
    {parts : List Contribution} (h : final.TellsGuards run directives parts) {own : Contribution}
    (hcopied : ∀ other n, ¬ own.Copies other n) :
    final.TellsGuards run directives (parts ++ [own]) := by
  intro name
  rw [h name, Run.hasOpened_append]
  simp [Run.not_hasOpened hcopied]

theorem Run.namedGuards_consulted (run : Run σ) (provider : Provider σ) (file : Path)
    (line : Nat) (importText : String) (trailing : Option String) :
    (run.consulted provider file line importText trailing).state.namedGuards =
      run.state.namedGuards := by
  cases trailing <;> rfl

theorem Run.namedGuards_begun (run : Run σ) (directives : Directives) (path : Path)
    (content : String) :
    (run.begun directives path content).state.namedGuards = run.state.namedGuards := by
  unfold Run.begun
  split <;> rfl

end ShaderInline
