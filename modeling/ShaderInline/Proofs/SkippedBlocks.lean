import ShaderInline.Proofs.LineFates

/-!
# Where blocks are skipped

A block is skipped where its first line is walked, and a file is walked once. So a task skips blocks
of the files that it reads, and of its own file only those that begin at a line ahead of it. If the
block at some line is skipped in the end, it is skipped by every task that comes to that line.
-/
namespace ShaderInline

variable {σ : Type}

instance (run : Run σ) (name : String) (file : Path) (number : Nat) :
    Decidable (.skippedGuard name file number ∈ run.events) :=
  decidable_of_iff (run.events.any fun event => match event with
      | .skippedGuard opened path line => opened = name ∧ path = file ∧ line = number
      | _ => false) <| by
    rw [List.any_eq_true]
    constructor
    · rintro ⟨event, hmem, hevent⟩
      split at hevent
      case h_1 => obtain ⟨rfl, rfl, rfl⟩ := of_decide_eq_true hevent; exact hmem
      case h_2 => cases hevent
    · intro hmem
      exact ⟨_, hmem, by simp⟩

/-- Whether a task may come to a line of a file that lies in no block. -/
def Task.MayReach (run after : Run σ) (file : Path) (number : Nat) : Task → Prop
  | .file _ => run.ReadsUntil after file
  | .lines importer _ n skip => importer = file ∧ n + skip ≤ number ∨ run.ReadsUntil after file

/-- Whether the block that begins at a line is skipped by a task, if the task may come there. -/
def Task.Skips (task : Task) (run after : Run σ) (name : String) (file : Path) (number : Nat) :
    Prop :=
  task.MayReach run after file number →
    .skippedGuard name file number ∉ run.events ∧ .skippedGuard name file number ∈ after.events

section Events

variable {provider : Provider σ} {directives : Directives} {limit : Nat} {opened : OpenFiles}
  {task : Task} {run after : Run σ} {result : Except Stop ExpansionTree} {name : String}
  {file : Path} {number : Nat}

theorem Run.skippedGuard_mem_consulted {importer : Path} {line : Nat} {importText : String}
    {trailing : Option String} :
    .skippedGuard name file number ∈
        (run.consulted provider importer line importText trailing).events ↔
      .skippedGuard name file number ∈ run.events :=
  Run.mem_events_consulted trivial

/-- What is behind a line may reach what the line itself may reach. -/
theorem Task.MayReach.tail {importer : Path} {line : String} {lines : List String} {n skip : Nat}
    {middle : Run σ}
    (h : (Task.lines importer lines (n + 1) skip).MayReach middle after file number)
    (hgrown : run.identities ⊆ middle.identities) :
    (Task.lines importer (line :: lines) n 0).MayReach run after file number := by
  rcases h with ⟨hfile, hle⟩ | hreads
  · exact .inl ⟨hfile, by omega⟩
  · exact .inr (hreads.widen hgrown (List.Subset.refl _))

theorem Run.ReadsUntil.consulted {importer : Path} {line : Nat} {importText : String}
    {trailing : Option String}
    (h : (run.consulted provider importer line importText trailing).ReadsUntil after file) :
    run.ReadsUntil after file :=
  h.widen (by simp) (List.Subset.refl _)

/-- A file that is walked was read for it, if no file is read twice. -/
theorem Expands.readsUntil {path : Path} {content : String} {depth skip : Nat} {lines : List String}
    (h : Expands provider directives limit opened (.lines path lines number skip)
      ((run.asked provider path depth).begun directives path content) result after)
    (hnodup : after.identities.Nodup) : run.ReadsUntil after path := by
  have hprefix := Run.identities_prefix h.events_prefix
  rw [Run.identities_begun] at hprefix
  exact Run.readsUntil_of_asked hprefix hnodup

/-- A task skips only blocks that it may come to. -/
theorem Expands.skippedGuard_mem
    (h : Expands provider directives limit opened task run result after)
    (hnodup : after.identities.Nodup) (hmem : .skippedGuard name file number ∈ after.events) :
    .skippedGuard name file number ∈ run.events ∨ task.MayReach run after file number := by
  induction h with
  | tooDeep | circular | malformed | done => exact .inl hmem
  | unreadable => exact .inl (by simpa using hmem)
  | alreadyIncluded => exact .inl (by simpa using hmem)
  | entered _ _ _ hwalk ih =>
    rcases ih hnodup hmem with hbefore | ⟨rfl, _⟩ | hreads
    · exact .inl (by simpa using hbefore)
    · exact .inr (hwalk.readsUntil hnodup)
    · exact .inr (hreads.widen (by simp) (List.Subset.refl _))
  | inBlock _ _ ih =>
    refine (ih hnodup hmem).imp_right ?_
    exact Or.imp_left fun ⟨hfile, hle⟩ => ⟨hfile, by omega⟩
  | unresolved => exact .inl (Run.skippedGuard_mem_consulted.mp hmem)
  | alreadyImported _ _ _ _ _ ih =>
    exact (ih hnodup hmem).imp Run.skippedGuard_mem_consulted.mp fun hreach =>
      hreach.tail (by simp)
  | failedImport _ _ _ _ _ ih =>
    exact (ih hnodup hmem).imp Run.skippedGuard_mem_consulted.mp fun hreads =>
      .inr (Run.ReadsUntil.consulted hreads)
  | inlined _ _ _ _ hchild hrest ihchild ihrest =>
    have hmiddle := Run.identities_prefix hrest.events_prefix
    have hgrown := Run.identities_prefix hchild.events_prefix
    rw [Run.identities_consulted] at hgrown
    rcases ihrest hnodup hmem with hbefore | hreach
    · refine (ihchild (hnodup.sublist hmiddle.sublist) hbefore).imp
        Run.skippedGuard_mem_consulted.mp fun hreads => .inr ?_
      exact (Run.ReadsUntil.consulted hreads).widen (List.Subset.refl _) hmiddle.subset
    · exact .inr (hreach.tail hgrown.subset)
  | plain _ _ _ _ ih => exact (ih hnodup hmem).imp_right fun hreach => hreach.tail (by simp)
  | opening _ _ _ _ _ ih =>
    exact (ih hnodup hmem).imp_right fun hreach => hreach.tail (List.Subset.refl _)
  | skippedBlock _ _ _ _ _ ih =>
    rcases ih hnodup hmem with hbefore | hreach
    · rw [Run.events_noted, List.mem_append, List.mem_singleton] at hbefore
      rcases hbefore with hbefore | hnow
      · exact .inl hbefore
      · cases hnow
        exact .inr (.inl ⟨rfl, Nat.le_refl _⟩)
    · exact .inr (hreach.tail (by simp [Run.identities]))

/-- What is skipped is a block. -/
theorem Expands.isBlock_of_skippedGuard
    (h : Expands provider directives limit opened task run result after)
    (hmem : .skippedGuard name file number ∈ after.events) :
    .skippedGuard name file number ∈ run.events ∨
      ∃ last, after.IsBlock directives file name number last := by
  induction h with
  | tooDeep | circular | malformed | done => exact .inl hmem
  | unreadable | alreadyIncluded => exact .inl (by simpa using hmem)
  | entered _ _ _ _ ih => exact (ih hmem).imp_left fun hbefore => by simpa using hbefore
  | unresolved => exact .inl (Run.skippedGuard_mem_consulted.mp hmem)
  | alreadyImported _ _ _ _ _ ih => exact (ih hmem).imp_left Run.skippedGuard_mem_consulted.mp
  | failedImport _ _ _ _ _ ih => exact (ih hmem).imp_left Run.skippedGuard_mem_consulted.mp
  | inlined _ _ _ _ _ hrest ihchild ihrest =>
    rcases ihrest hmem with hbefore | hblock
    · refine (ihchild hbefore).imp Run.skippedGuard_mem_consulted.mp ?_
      rintro ⟨last, line, following, hat, hblock⟩
      exact ⟨last, line, following, hat.mono hrest.events_prefix.subset, hblock⟩
    · exact .inr hblock
  | inBlock _ _ ih => exact ih hmem
  | plain _ _ _ _ ih => exact ih hmem
  | opening _ _ _ _ _ ih => exact ih hmem
  | skippedBlock hat hline hguard _ hrest ih =>
    rcases ih hmem with hbefore | hblock
    · rw [Run.events_noted, List.mem_append, List.mem_singleton] at hbefore
      rcases hbefore with hbefore | hnow
      · exact .inl hbefore
      · cases hnow
        have hgrown := hrest.events_prefix.subset
        have hwalked := hat.mono fun _ hmem => hgrown (by simp [hmem])
        exact .inr ⟨_, _, _, hwalked, hline, hguard, rfl⟩
    · exact .inr hblock

end Events

namespace Task.Skips

variable {provider : Provider σ} {directives : Directives} {limit : Nat} {opened : OpenFiles}
  {run middle after : Run σ} {result : Except Stop ExpansionTree} {name line : String}
  {file importer path : Path} {lines : List String} {number n skip : Nat}

theorem inBlock (h : (Task.lines importer (line :: lines) n (skip + 1)).Skips run after name file
    number) : (Task.lines importer lines (n + 1) skip).Skips run after name file number :=
  fun hreach => h (hreach.imp_left fun ⟨hfile, hle⟩ => ⟨hfile, by omega⟩)

/-- Behind a line that does not lie in a block. -/
theorem tail (h : (Task.lines importer (line :: lines) n 0).Skips run after name file number)
    (himporter : importer.components ∈ run.identities)
    (hgrown : run.identities ⊆ middle.identities)
    (hevents : .skippedGuard name file number ∈ middle.events →
      .skippedGuard name file number ∈ run.events ∨ run.CoversLine middle importer n file number) :
    (Task.lines importer lines (n + 1) skip).Skips middle after name file number := by
  intro hreach
  obtain ⟨hbefore, hafter⟩ := h (hreach.tail hgrown)
  refine ⟨fun hmem => ?_, hafter⟩
  rcases hevents hmem with hmem | ⟨hfile, hn⟩ | hreads
  · exact hbefore hmem
  · rcases hreach with ⟨_, hle⟩ | hlater
    · omega
    · exact hlater.1 (hgrown (hfile ▸ himporter))
  · rcases hreach with ⟨hfile, _⟩ | hlater
    · exact hreads.1 (hfile ▸ himporter)
    · exact hlater.1 hreads.2

/-- In an imported file that fails the run. -/
theorem child {importText : String} {trailing : Option String}
    (h : (Task.lines importer (line :: lines) n 0).Skips run after name file number) :
    (Task.file path).Skips (run.consulted provider importer n importText trailing) after name file
      number := by
  intro hreads
  obtain ⟨hbefore, hafter⟩ := h (.inr (Run.ReadsUntil.consulted hreads))
  exact ⟨fun hmem => hbefore (Run.skippedGuard_mem_consulted.mp hmem), hafter⟩

/-- In an imported file that is inlined. If it has the block, what is behind the import line does
not come there. -/
theorem inlined {importText expanded : String} {trailing : Option String}
    (h : (Task.lines importer (line :: lines) n 0).Skips run after name file number)
    (hrest : Expands provider directives limit opened (.lines importer lines (n + 1) 0)
      (middle.completed path expanded) result after)
    (himporter : importer.components ∈ run.identities) (hnodup : after.identities.Nodup) :
    (Task.file path).Skips (run.consulted provider importer n importText trailing) middle name file
      number := by
  intro hreads
  have hread : run.ReadsUntil middle file := hreads.consulted
  have hgrown := Run.identities_prefix hrest.events_prefix
  obtain ⟨hbefore, hafter⟩ := h (.inr (hread.widen (List.Subset.refl _) hgrown.subset))
  refine ⟨fun hmem => hbefore (Run.skippedGuard_mem_consulted.mp hmem), ?_⟩
  refine (hrest.skippedGuard_mem hnodup hafter).resolve_right ?_
  rintro (⟨hfile, _⟩ | hlater)
  · exact hread.1 (hfile ▸ himporter)
  · exact hlater.1 hread.2

/-- Behind the line that imports a file that is inlined. -/
theorem behind {tree : ExpansionTree} {importText expanded : String} {trailing : Option String}
    (h : (Task.lines importer (line :: lines) n 0).Skips run after name file number)
    (hchild : Expands provider directives limit opened (.file path)
      (run.consulted provider importer n importText trailing) (.ok tree) middle)
    (himporter : importer.components ∈ run.identities) (hnodup : middle.identities.Nodup) :
    (Task.lines importer lines (n + 1) 0).Skips (middle.completed path expanded) after name file
      number := by
  have hgrown := Run.identities_prefix hchild.events_prefix
  rw [Run.identities_consulted] at hgrown
  refine h.tail himporter hgrown.subset fun hmem => ?_
  exact (hchild.skippedGuard_mem hnodup hmem).imp Run.skippedGuard_mem_consulted.mp fun hreads =>
    .inr (Run.ReadsUntil.consulted hreads)

/-- Behind a line that opens a guard. It is not the block that is skipped. -/
theorem opening {opened' : String}
    (h : (Task.lines importer (line :: lines) n 0).Skips run after name file number)
    (hrest : Expands provider directives limit opened (.lines importer lines (n + 1) 0)
      (run.defined opened') result after)
    (himporter : importer.components ∈ run.identities) (hnodup : after.identities.Nodup) :
    ¬ (importer = file ∧ n = number) ∧
      (Task.lines importer lines (n + 1) 0).Skips (run.defined opened') after name file number := by
  refine ⟨?_, h.tail himporter (List.Subset.refl _) .inl⟩
  rintro ⟨rfl, rfl⟩
  obtain ⟨hbefore, hskipped⟩ := h (.inl ⟨rfl, Nat.le_refl _⟩)
  rcases hrest.skippedGuard_mem hnodup hskipped with hmem | ⟨_, hle⟩ | hreads
  · exact hbefore hmem
  · omega
  · exact hreads.1 himporter

/-- Behind the first line of a block that is skipped. If it is another block, it ends before the
one in question. -/
theorem block {opened' : String}
    (h : (Task.lines importer (line :: lines) n 0).Skips run after name file number)
    (hrest : Expands provider directives limit opened (.lines importer lines (n + 1) skip)
      (run.noted (.skippedGuard opened' importer n)) result after)
    (himporter : importer.components ∈ run.identities) (hnodup : after.identities.Nodup) :
    (importer = file → n < number → n + 1 + skip ≤ number) ∧
      (Task.lines importer lines (n + 1) skip).Skips
        (run.noted (.skippedGuard opened' importer n)) after name file number := by
  have hevents : .skippedGuard name file number ∈
        (run.noted (.skippedGuard opened' importer n)).events →
      .skippedGuard name file number ∈ run.events ∨ file = importer ∧ number = n := by
    rw [Run.events_noted, List.mem_append, List.mem_singleton]
    refine Or.imp_right fun hnow => ?_
    cases hnow
    exact ⟨rfl, rfl⟩
  have hgrown : run.identities ⊆ (run.noted (.skippedGuard opened' importer n)).identities := by
    simp [Run.identities]
  refine ⟨?_, h.tail himporter hgrown fun hmem => (hevents hmem).imp_right .inl⟩
  rintro rfl hlater
  obtain ⟨hbefore, hskipped⟩ := h (.inl ⟨rfl, Nat.le_of_lt hlater⟩)
  rcases hrest.skippedGuard_mem hnodup hskipped with hmem | ⟨_, hle⟩ | hreads
  · rcases hevents hmem with hmem | ⟨_, rfl⟩
    · exact absurd hmem hbefore
    · exact absurd hlater (Nat.lt_irrefl _)
  · exact hle
  · exact absurd (hgrown himporter) hreads.1

theorem entered {content : String} {depth : Nat}
    (h : (Task.file path).Skips run after name file number)
    (hwalk : Expands provider directives limit opened (.lines path lines 1 0)
      ((run.asked provider path depth).begun directives path content) result after)
    (hnodup : after.identities.Nodup) :
    (Task.lines path lines 1 0).Skips
      ((run.asked provider path depth).begun directives path content) after name file number := by
  intro hreach
  have hreads : run.ReadsUntil after file := by
    rcases hreach with ⟨rfl, _⟩ | hreads
    · exact hwalk.readsUntil hnodup
    · exact hreads.widen (by simp) (List.Subset.refl _)
  obtain ⟨hbefore, hafter⟩ := h hreads
  exact ⟨by simpa using hbefore, hafter⟩

end Task.Skips

end ShaderInline
