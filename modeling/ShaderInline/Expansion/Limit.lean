import ShaderInline.Expansion.Walk

/-!
# The limit of nesting

Every open file has been read, and no file is open twice. A provider that can read finitely many
files therefore cannot nest them more deeply than their number, and a larger limit is never met.
-/
namespace ShaderInline

variable {σ α β : Type}

namespace RunM

/-- Whether a step never ends for its depth, from whatever run it begins. -/
def StaysShallow (step : RunM σ α) : Prop := ∀ run, (step run).1 ≠ .error .tooDeep

theorem StaysShallow.bind {step : RunM σ α} {next : α → RunM σ β} (hstep : step.StaysShallow)
    (hnext : ∀ a before after, step before = (.ok a, after) → (next a).StaysShallow) :
    (step >>= next).StaysShallow := by
  intro run
  rw [bind_apply]
  rcases h : step run with ⟨stop | a, after⟩
  · have := hstep run
    rw [h] at this
    simpa using this
  · exact hnext a run after h after

theorem staysShallow_pure (a : α) : (pure a : RunM σ α).StaysShallow := by
  intro run h
  cases h

theorem staysShallow_fail (failure : Failure) : (fail failure : RunM σ α).StaysShallow := by
  intro run h
  cases h

theorem staysShallow_note (event : Event) : (note event : RunM σ Unit).StaysShallow := by
  intro run h
  cases h

theorem staysShallow_remark (r : Remark) : (remark r : RunM σ Unit).StaysShallow := by
  intro run h
  cases h

theorem staysShallow_complete (path : Path) (expanded : String) :
    (complete path expanded : RunM σ Unit).StaysShallow := by
  intro run h
  cases h

theorem staysShallow_enterOnce (path : Path) : (enterOnce path : RunM σ Bool).StaysShallow := by
  intro run h
  cases h

theorem staysShallow_define (name : String) : (define name : RunM σ Bool).StaysShallow := by
  intro run h
  cases h

theorem staysShallow_read (provider : Provider σ) (path : Path) (depth : Nat) :
    (read provider path depth).StaysShallow := by
  intro run
  rw [read_apply]
  cases (provider.read path run.source).1 <;> simp

theorem staysShallow_resolve (provider : Provider σ) (importText : String) (importer : Path)
    (line : Nat) : (resolve provider importText importer line).StaysShallow := by
  intro run
  rw [resolve_apply]
  cases (provider.resolve importText importer run.source).1 <;> simp

theorem StaysShallow.within {step : RunM σ α} (h : step.StaysShallow) (importText : String)
    (importer : Path) (line : Nat) : (within importText importer line step).StaysShallow := by
  intro run
  have hrun := h run
  rw [within_apply]
  rcases hstep : step run with ⟨stop | _, _⟩
  · cases stop with
    | failed failure => simp [Stop.imported]
    | tooDeep => simp [hstep] at hrun
  · simp

end RunM

namespace Site

theorem staysShallow_remark (site : Site σ) (line : Nat) (importText : String)
    (trailing : Option String) : (site.remark line importText trailing).StaysShallow := by
  cases trailing with
  | none => exact RunM.staysShallow_pure _
  | some trailing => exact RunM.staysShallow_remark _

theorem staysShallow_isComplete (site : Site σ) (path : Path) :
    (site.isComplete path).StaysShallow := by
  intro run h
  cases h

variable {child : Path → RunM σ ExpansionTree} (hchild : ∀ path, (child path).StaysShallow)
include hchild

theorem staysShallow_inlineFile (site : Site σ) (line : Nat) (importText : String) (path : Path) :
    (site.inlineFile child line importText path).StaysShallow := by
  refine ((hchild path).within _ _ _).bind fun tree _ _ _ => ?_
  exact (RunM.staysShallow_complete _ _).bind fun _ _ _ _ => RunM.staysShallow_pure _

theorem staysShallow_importFile (site : Site σ) (line : Nat) (importText : String)
    (trailing : Option String) :
    (site.importFile child line importText trailing).StaysShallow := by
  refine (staysShallow_remark site _ _ _).bind fun _ _ _ _ => ?_
  refine (RunM.staysShallow_resolve _ _ _ _).bind fun path _ _ _ => ?_
  refine (staysShallow_isComplete site path).bind fun complete _ _ _ => ?_
  split
  · exact RunM.staysShallow_pure _
  · exact (staysShallow_inlineFile hchild site _ _ _).bind fun _ _ _ _ => RunM.staysShallow_pure _

theorem staysShallow_walk (site : Site σ) (lines : List String) (number skip : Nat) :
    (site.walk child lines number skip).StaysShallow := by
  induction lines generalizing number skip with
  | nil => exact RunM.staysShallow_pure _
  | cons line lines ih =>
    cases skip with
    | succ skip => exact (ih _ _).bind fun _ _ _ _ => RunM.staysShallow_pure _
    | zero =>
      unfold walk
      split
      · refine (staysShallow_importFile hchild site _ _ _).bind fun (_, _) _ _ _ => ?_
        exact (ih _ _).bind fun _ _ _ _ => RunM.staysShallow_pure _
      · exact RunM.staysShallow_fail _
      · split
        · exact (ih _ _).bind fun _ _ _ _ => RunM.staysShallow_pure _
        · refine (RunM.staysShallow_define _).bind fun fresh _ _ _ => ?_
          split
          · exact (ih _ _).bind fun _ _ _ _ => RunM.staysShallow_pure _
          · refine (RunM.staysShallow_note _).bind fun _ _ _ _ => ?_
            exact (ih _ _).bind fun _ _ _ _ => RunM.staysShallow_pure _

end Site

/-- How many of the readable files are not open. -/
def unopened (readable : List Path) (opened : OpenFiles) : Nat :=
  (readable.filter fun path => !opened.contains path).length

theorem unopened_enter_lt {readable : List Path} {opened entered : OpenFiles} {path known : Path}
    (henter : opened.enter path = .ok entered) (hknown : known ∈ readable)
    (hequiv : known ≈ path) : unopened readable entered < unopened readable opened := by
  obtain ⟨hnew, hfiles⟩ := OpenFiles.enter_eq_ok henter
  have hkept : ∀ other, opened.contains other → entered.contains other := by
    intro other hother
    obtain ⟨file, hfile, he⟩ := OpenFiles.contains_iff.mp hother
    exact OpenFiles.contains_iff.mpr ⟨file, by simp [hfiles, hfile], he⟩
  have hopened : entered.contains known :=
    OpenFiles.contains_iff.mpr ⟨path, by simp [hfiles], Setoid.symm hequiv⟩
  have hclosed : ¬ opened.contains known := by
    intro hopen
    obtain ⟨file, hfile, he⟩ := OpenFiles.contains_iff.mp hopen
    exact hnew (OpenFiles.contains_iff.mpr ⟨file, hfile, Setoid.trans he hequiv⟩)
  have hfilter : (readable.filter fun path => !entered.contains path) =
      (readable.filter fun path => !opened.contains path).filter fun path =>
        !entered.contains path := by
    rw [List.filter_filter]
    refine List.filter_congr fun other _ => ?_
    cases hs : opened.contains other with
    | false => simp
    | true => simp [hkept other hs]
  unfold unopened
  rw [hfilter]
  refine Nat.lt_of_le_of_ne (List.length_filter_le _ _) fun hall => ?_
  have := List.length_filter_eq_length_iff.mp hall known (by simp [hknown, hclosed])
  simp [hopened] at this

/-- With a limit above the number of readable files that are not open, no run is too deep. -/
theorem staysShallow_expandFile {provider : Provider σ} {readable : List Path}
    (hreads : provider.ReadsAmong readable) (directives : Directives) (limit : Nat)
    (opened : OpenFiles) (path : Path) (hlimit : unopened readable opened < limit) :
    (expandFile provider directives limit opened path).StaysShallow := by
  induction limit generalizing opened path with
  | zero => omega
  | succ limit ih =>
    unfold expandFile
    split
    case h_1 => exact RunM.staysShallow_fail _
    case h_2 entered henter =>
      refine (RunM.staysShallow_read _ _ _).bind fun content before later hread => ?_
      have hcontent : (provider.read path before.source).1 = .ok content := by
        rw [RunM.read_apply] at hread
        cases hanswer : (provider.read path before.source).1 with
        | ok answer => rw [hanswer] at hread; cases hread; rfl
        | error cause => rw [hanswer] at hread; cases hread
      obtain ⟨known, hknown, hequiv⟩ := hreads path before.source content hcontent
      have hfewer := unopened_enter_lt henter hknown hequiv
      have hchild : ∀ child,
          (expandFile provider directives limit entered child).StaysShallow :=
        fun child => ih entered child (by omega)
      dsimp only
      split
      · refine (RunM.staysShallow_enterOnce _).bind fun fresh _ _ _ => ?_
        split
        · exact Site.staysShallow_walk hchild _ _ _ _
        · exact (RunM.staysShallow_note _).bind fun _ _ _ _ => RunM.staysShallow_pure _
      · exact Site.staysShallow_walk hchild _ _ _ _

end ShaderInline
