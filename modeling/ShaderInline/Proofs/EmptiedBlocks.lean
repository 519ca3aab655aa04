import ShaderInline.Proofs.BlockEdits
import ShaderInline.Proofs.SkippedBlocks

/-!
# Emptied blocks

A provider may empty one block of one file. A run on it is held against a run on the files as they
are: the two match where they differ in the texts that were read alone. Before the block they walk
the same lines. Where the first run passes over the lines of the block one by one, the second one is
taken to stand behind them already, so that nothing has to be known of these lines.
-/
namespace ShaderInline

variable {σ : Type}

/-- An event without the text that was read. -/
def Event.withoutContent : Event → Event
  | read path depth (.ok _) => read path depth (.ok "")
  | event => event

/-- Whether a provider gives the answers of another one, except that in a file the block that begins
at a line is emptied. -/
structure Provider.EmptiesBlock (emptied provider : Provider σ) (file : Path) (number : Nat) :
    Prop where
  resolve : emptied.resolve = provider.resolve
  read : ∀ path source, ¬ path ≈ file → emptied.read path source = provider.read path source
  block : ∀ source content, (provider.read file source).1 = .ok content →
    ∃ content', Text.EmptiesBlock number content content' ∧
      emptied.read file source = (.ok content', (provider.read file source).2)

/-- The provider that empties the block at a line of a file, and leaves all else as it is. -/
def Provider.emptyBlock (provider : Provider σ) (file : Path) (number : Nat) : Provider σ where
  resolve := provider.resolve
  read path source :=
    if path ≈ file then
      ((provider.read path source).1.map (Text.emptyBlock number), (provider.read path source).2)
    else provider.read path source

theorem Provider.emptiesBlock_emptyBlock (provider : Provider σ) (file : Path) (number : Nat) :
    (provider.emptyBlock file number).EmptiesBlock provider file number where
  resolve := rfl
  read path source hother := if_neg hother
  block source content hread := by
    refine ⟨_, Text.emptiesBlock_emptyBlock number content, ?_⟩
    simp [emptyBlock, hread, Except.map]

/-- Whether two runs have come equally far and differ in the texts that were read alone. -/
structure Run.Matches (other run : Run σ) : Prop where
  source : other.source = run.source
  state : other.state = run.state
  events : other.events.map Event.withoutContent = run.events.map Event.withoutContent

namespace Run.Matches

variable {provider emptied : Provider σ} {other run : Run σ} {path : Path}

theorem reads_eq (h : other.Matches run) : other.reads = run.reads := by
  have hpaths : Event.readPath? = Event.readPath? ∘ Event.withoutContent := by
    funext event
    cases event with
    | read path depth answer => cases answer <;> rfl
    | _ => rfl
  have hreads : ∀ run : Run σ,
      run.reads = (run.events.map Event.withoutContent).filterMap Event.readPath? := by
    intro run
    rw [List.filterMap_map, ← hpaths]
    rfl
  rw [hreads, h.events, ← hreads]

theorem messages_eq (h : other.Matches run) : other.messages = run.messages := by
  have htexts : Event.message? = Event.message? ∘ Event.withoutContent := by
    funext event
    cases event with
    | read path depth answer => cases answer <;> rfl
    | _ => rfl
  have hmessages : ∀ run : Run σ,
      run.messages = (run.events.map Event.withoutContent).filterMap Event.message? := by
    intro run
    rw [List.filterMap_map, ← htexts]
    rfl
  rw [hmessages, h.events, ← hmessages]

theorem noted (h : other.Matches run) (event : Event) :
    (other.noted event).Matches (run.noted event) :=
  ⟨h.source, h.state, by simp [h.events]⟩

theorem asked (h : other.Matches run) {depth : Nat}
    (hsource : (emptied.read path run.source).2 = (provider.read path run.source).2)
    (hanswer : (Event.read path depth (emptied.read path run.source).1).withoutContent =
      (Event.read path depth (provider.read path run.source).1).withoutContent) :
    (other.asked emptied path depth).Matches (run.asked provider path depth) := by
  refine ⟨?_, h.state, ?_⟩
  · simp [Run.asked, h.source, hsource]
  · simp [h.source, h.events, hanswer]

theorem remarked (h : other.Matches run) (remark : Remark) :
    (other.remarked remark).Matches (run.remarked remark) :=
  { h.noted (.remarked remark) with state := by simp [Run.remarked, Run.noted, h.state] }

theorem consulted (h : other.Matches run) (hresolve : emptied.resolve = provider.resolve)
    (file : Path) (line : Nat) (importText : String) (trailing : Option String) :
    (other.consulted emptied file line importText trailing).Matches
      (run.consulted provider file line importText trailing) := by
  have hlookedUp : ∀ {other run : Run σ}, other.Matches run →
      (other.lookedUp emptied importText file line).Matches
        (run.lookedUp provider importText file line) := by
    intro other run h
    unfold Run.lookedUp
    rw [h.source, hresolve]
    exact { h.noted _ with source := rfl }
  cases trailing with
  | none => exact hlookedUp h
  | some trailing => exact hlookedUp (h.remarked _)

theorem begun (h : other.Matches run) {directives : Directives} {content content' : String}
    (honce : directives.guardsOnce (Text.lines content') =
      directives.guardsOnce (Text.lines content)) (path : Path) :
    (other.begun directives path content').Matches (run.begun directives path content) := by
  unfold Run.begun
  rw [honce]
  split
  · exact { h with state := by simp [Run.guardedOnce, h.state] }
  · exact h

theorem defined (h : other.Matches run) (name : String) :
    (other.defined name).Matches (run.defined name) :=
  { h with state := by simp [Run.defined, h.state] }

theorem completed (h : other.Matches run) (path : Path) (expanded : String) :
    (other.completed path expanded).Matches (run.completed path expanded) :=
  { h with state := by simp [Run.completed, h.state] }

theorem refers_iff (h : other.Matches run) (opened : OpenFiles) (path : Path) :
    other.Refers opened path ↔ run.Refers opened path := by
  rw [Run.Refers, Run.Refers, h.state]

end Run.Matches

/-- Whether a task and another one have come equally far in two versions of a file, one of which
goes on in its own way behind the line that opens a block, but as the other one does behind the
block. Inside the block the other task stands behind it. -/
inductive Task.Matches (file : Path) (number : Nat) (name opening : String)
    (following : List String) : Task → Task → Prop where
  | file (path : Path) : Matches file number name opening following (.file path) (.file path)
  | same {importer : Path} {lines : List String} {n skip : Nat}
      (hbehind : importer = file → number < n) :
      Matches file number name opening following (.lines importer lines n skip)
        (.lines importer lines n skip)
  | before {front lines lines' following' : List String} {n skip : Nat}
      (hlines : lines = front ++ opening :: following)
      (hlines' : lines' = front ++ opening :: following')
      (hopens : openedGuard? opening following' = some name)
      (hbehind : SameBehindBlock following following') (hnumber : n + front.length = number)
      (hskip : skip ≤ front.length) :
      Matches file number name opening following (.lines file lines n skip)
        (.lines file lines' n skip)
  | within {block lines rest : List String} {n skip last : Nat} (hlines : lines = block ++ rest)
      (hskip : skip = block.length) (hlast : last = n + skip ∨ rest = []) (hbehind : number < n) :
      Matches file number name opening following (.lines file lines n skip)
        (.lines file rest last 0)

namespace Task.Matches

variable {file importer : Path} {number n skip : Nat} {name opening line : String}
  {following lines : List String} {other : Task}

/-- A line other than the one that opens the block. -/
theorem next
    (h : (Task.lines importer (line :: lines) n 0).Matches file number name opening following other)
    (hother : ¬ (importer = file ∧ n = number)) :
    ∃ lines', other = .lines importer (line :: lines') n 0 ∧
      openedGuard? line lines' = openedGuard? line lines ∧
      (Task.lines importer lines (n + 1) 0).Matches file number name opening following
        (.lines importer lines' (n + 1) 0) ∧
      ((importer = file → n ≤ number → n + 1 + blockLength 1 lines ≤ number) →
        blockLength 1 lines' = blockLength 1 lines ∧
        (Task.lines importer lines (n + 1) (blockLength 1 lines)).Matches file number name opening
          following (.lines importer lines' (n + 1) (blockLength 1 lines))) := by
  cases h with
  | same hbehind =>
    have hlater : importer = file → number < n + 1 := fun hfile => by
      have := hbehind hfile
      omega
    exact ⟨lines, rfl, rfl, .same hlater, fun _ => ⟨rfl, .same hlater⟩⟩
  | @before front _ lines' following' _ _ hlines hlines' hopens hbehind hnumber hskip =>
    cases front with
    | nil => exact absurd ⟨rfl, hnumber⟩ hother
    | cons first front =>
      rw [List.cons_append] at hlines
      obtain ⟨rfl, rfl⟩ := List.cons.inj hlines
      rw [List.length_cons] at hnumber
      have hlater : n + 1 + front.length = number := by omega
      refine ⟨_, congrArg (Task.lines _ · n 0) hlines', openedGuard?_append _ _ _ _ _,
        .before rfl rfl hopens hbehind hlater (Nat.zero_le _), fun hends => ?_⟩
      have hlength : n + 1 + blockLength 1 (front ++ opening :: following) ≤ number :=
        hends rfl (by omega)
      exact ⟨blockLength_append_of_le _ (by omega),
        .before rfl rfl hopens hbehind hlater (by omega)⟩
  | @within block _ rest _ _ last hlines hskip hlast hbehind =>
    obtain rfl := List.eq_nil_of_length_eq_zero hskip.symm
    obtain rfl : rest = line :: lines := hlines.symm
    obtain rfl : last = _ := hlast.resolve_right (List.cons_ne_nil _ _)
    exact ⟨lines, rfl, rfl, .same fun _ => by omega, fun _ => ⟨rfl, .same fun _ => by omega⟩⟩

/-- The line that opens the block. -/
theorem block
    (h : (Task.lines file (line :: lines) number 0).Matches file number name opening following
      other) :
    line = opening ∧ lines = following ∧ ∃ following',
      other = .lines file (opening :: following') number 0 ∧
      openedGuard? opening following' = some name ∧ SameBehindBlock following following' := by
  cases h with
  | same hbehind => exact absurd (hbehind rfl) (Nat.lt_irrefl _)
  | @before front _ lines' following' _ _ hlines hlines' hopens hbehind hnumber hskip =>
    obtain rfl : front = [] := List.eq_nil_of_length_eq_zero (by omega)
    obtain ⟨rfl, rfl⟩ := List.cons.inj hlines
    exact ⟨rfl, rfl, following', congrArg (Task.lines _ · _ 0) hlines', hopens, hbehind⟩
  | within _ _ _ hbehind => exact absurd hbehind (Nat.lt_irrefl _)

theorem not_opening
    (h : (Task.lines importer (line :: lines) n 0).Matches file number name opening following other)
    (hline : ¬ (line = opening ∧ lines = following)) : ¬ (importer = file ∧ n = number) := by
  rintro ⟨rfl, rfl⟩
  obtain ⟨hopening, hfollowing, _⟩ := h.block
  exact hline ⟨hopening, hfollowing⟩

/-- An import line. It does not open the block. -/
theorem next_of_import {directives : Directives}
    (h : (Task.lines importer (line :: lines) n 0).Matches file number name opening following other)
    (habsent : ImportReading.ofLine directives opening = .absent)
    (hline : ImportReading.ofLine directives line ≠ .absent) :
    ∃ lines', other = .lines importer (line :: lines') n 0 ∧
      (Task.lines importer lines (n + 1) 0).Matches file number name opening following
        (.lines importer lines' (n + 1) 0) := by
  have hother := h.not_opening fun hopening => hline (hopening.1 ▸ habsent)
  obtain ⟨lines', hlines', _, hbehind, _⟩ := h.next hother
  exact ⟨lines', hlines', hbehind⟩

/-- A line in a block is passed over by both tasks, or the other one stands behind the block. -/
theorem inBlock
    (h : (Task.lines importer (line :: lines) n (skip + 1)).Matches file number name opening
      following other) :
    (∃ lines', other = .lines importer (line :: lines') n (skip + 1) ∧
        (Task.lines importer lines (n + 1) skip).Matches file number name opening following
          (.lines importer lines' (n + 1) skip)) ∨
      (Task.lines importer lines (n + 1) skip).Matches file number name opening following other ∧
        ∃ rest last, other = .lines importer rest last 0 := by
  cases h with
  | same hbehind =>
    refine .inl ⟨lines, rfl, .same fun hfile => ?_⟩
    have := hbehind hfile
    omega
  | @before front _ lines' following' _ _ hlines hlines' hopens hbehind hnumber hskip =>
    cases front with
    | nil => simp at hskip
    | cons first front =>
      rw [List.cons_append] at hlines
      obtain ⟨rfl, rfl⟩ := List.cons.inj hlines
      rw [List.length_cons] at hnumber hskip
      exact .inl ⟨_, congrArg (Task.lines _ · n _) hlines',
        .before rfl rfl hopens hbehind (by omega) (by omega)⟩
  | @within block _ rest _ _ _ hlines hskip hlast hbehind =>
    cases block with
    | nil => cases hskip
    | cons first block =>
      obtain ⟨rfl, rfl⟩ := List.cons.inj hlines
      rw [List.length_cons] at hskip
      have hbehind' : number < n + 1 := by omega
      exact .inr ⟨.within rfl (by omega) (hlast.imp_left fun hlast => by omega) hbehind', rest, _,
        rfl⟩

theorem done
    (h : (Task.lines importer [] n skip).Matches file number name opening following other) :
    ∃ last left, other = .lines importer [] last left := by
  cases h with
  | same => exact ⟨_, _, rfl⟩
  | @before front _ _ _ _ _ hlines => simp at hlines
  | within hlines =>
    obtain ⟨rfl, rfl⟩ := List.append_eq_nil_iff.mp hlines.symm
    exact ⟨_, _, rfl⟩

end Task.Matches

end ShaderInline
