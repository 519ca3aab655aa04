import ShaderInline.Proofs.Components

/-!
# Normal forms

The text of a normal form reads as the components it was made of. A walk that ends in names alone
has never left the directory it began in, so it ends below any other directory just as well. A
normal form is written with slashes, dots and the characters of what it was made from.
-/
namespace ShaderInline

namespace Component

section Walks

variable {steps trail : List Component} {step : Component}

/-- Whether a walk can have come to this trail: it is made of steps, perhaps up from the root. -/
def IsTrail (trail : List Component) : Prop :=
  (∀ step ∈ trail, step.IsStep) ∨ ∃ upper, trail = upper ++ [root] ∧ ∀ step ∈ upper, step.IsStep

theorem follow_eq_cons (hparent : step ≠ parent) (hcurrent : step ≠ current)
    (trail : List Component) : follow trail step = step :: trail := by
  cases step with
  | parent => exact absurd rfl hparent
  | current => exact absurd rfl hcurrent
  | root | name =>
    cases trail with
    | nil => rfl
    | cons last trail => cases last <;> rfl

theorem IsTrail.cons (h : IsTrail trail) (hstep : step.IsStep) : IsTrail (step :: trail) := by
  rcases h with hsteps | ⟨upper, rfl, hupper⟩
  · exact .inl (List.forall_mem_cons.mpr ⟨hstep, hsteps⟩)
  · exact .inr ⟨step :: upper, rfl, List.forall_mem_cons.mpr ⟨hstep, hupper⟩⟩

theorem IsTrail.tail (h : IsTrail (step :: trail)) (hstep : step ≠ root) : IsTrail trail := by
  rcases h with hsteps | ⟨upper, hupper, hall⟩
  · exact .inl fun other hmem => hsteps other (List.mem_cons_of_mem _ hmem)
  · cases upper with
    | nil =>
      cases hupper
      exact absurd rfl hstep
    | cons first upper =>
      cases hupper
      exact .inr ⟨upper, rfl, fun other hmem => hall other (List.mem_cons_of_mem _ hmem)⟩

theorem IsTrail.follow (h : IsTrail trail) (hstep : step.IsStep ∨ step = current) :
    IsTrail (follow trail step) := by
  rcases hstep with hstep | rfl
  · cases step with
    | root | current => cases hstep
    | name text =>
      rw [follow_eq_cons (by simp) (by simp)]
      exact h.cons hstep
    | parent =>
      cases trail with
      | nil => exact .inl (by simp [Component.follow, IsStep])
      | cons last trail =>
        cases last with
        | root => exact h
        | name text => exact h.tail (by simp)
        | current | parent => exact h.cons trivial
  · exact h

/-- A walk along the components of a path begins anywhere or at the root, and goes on in steps. -/
theorem AreComponents.foldl_follow {P : List Component → Prop} (h : AreComponents steps)
    (hnil : P []) (hroot : P [root])
    (hfollow : ∀ trail step, P trail → step.IsStep ∨ step = current →
      P (Component.follow trail step)) :
    P (steps.foldl Component.follow []) := by
  have hwalk : ∀ {steps trail : List Component}, P trail →
      (∀ step ∈ steps, step.IsStep ∨ step = current) → P (steps.foldl Component.follow trail) := by
    intro steps
    induction steps with
    | nil => exact fun htrail _ => htrail
    | cons step steps ih =>
      intro trail htrail hsteps
      rw [List.forall_mem_cons] at hsteps
      exact ih (hfollow trail step htrail hsteps.1) hsteps.2
  obtain ⟨hsteps, hinside⟩ := h
  cases steps with
  | nil => exact hnil
  | cons first steps =>
    have hrest : ∀ step ∈ steps, step.IsStep ∨ step = current := by
      intro step hmem
      rcases hsteps step (List.mem_cons_of_mem _ hmem) with hstep | rfl | hstep
      · exact .inl hstep
      · exact absurd hmem hinside
      · exact .inr hstep
    rw [List.foldl_cons]
    refine hwalk ?_ hrest
    rcases hsteps first List.mem_cons_self with hstep | rfl | rfl
    · exact hfollow [] first hnil (.inl hstep)
    · exact hroot
    · exact hnil

theorem AreComponents.isTrail (h : AreComponents steps) :
    IsTrail (steps.foldl Component.follow []) :=
  h.foldl_follow (.inl (by simp)) (.inr ⟨[], rfl, by simp⟩) fun _ _ => IsTrail.follow

theorem normalize_of_ne_nil (h : steps.foldl Component.follow [] ≠ []) :
    normalize steps = (steps.foldl Component.follow []).reverse := by
  unfold normalize
  split
  · contradiction
  · rfl

/-- The text of a normal form reads as its components. -/
theorem ofChars_render_normalize (h : AreComponents steps) :
    ofChars (render (normalize steps)).toList = normalize steps := by
  by_cases hempty : steps.foldl Component.follow [] = []
  · rw [normalize, hempty]
    rfl
  · rw [normalize_of_ne_nil hempty]
    rcases h.isTrail with hsteps | ⟨upper, htrail, hsteps⟩
    · have hall : ∀ step ∈ (steps.foldl Component.follow []).reverse, step.IsStep := by
        simpa using hsteps
      rw [render_eq_intercalate fun hroot => (hall root hroot).elim, ofChars_intercalate hall]
    · have hall : ∀ step ∈ upper.reverse, step.IsStep := by simpa using hsteps
      rw [htrail, List.reverse_append, List.reverse_singleton, List.singleton_append, render,
        String.toList_append]
      refine (ofChars_of_slash rfl).trans ?_
      exact congrArg _ ((stepsOf_append_slash [] _).trans (stepsOf_intercalate hall))

/-- Nothing but a name is ever left again. -/
theorem mem_follow (h : step ∈ trail) (hname : step.isName = false) (next : Component) :
    step ∈ follow trail next := by
  cases next with
  | current => exact h
  | root | name => cases trail with
    | nil => cases h
    | cons last trail => exact List.mem_cons_of_mem _ h
  | parent =>
    cases trail with
    | nil => cases h
    | cons last trail =>
      cases last with
      | root => exact h
      | current | parent => exact List.mem_cons_of_mem _ h
      | name text =>
        rcases List.mem_cons.mp h with rfl | h
        · cases hname
        · exact h

theorem mem_foldl_follow (h : step ∈ trail) (hname : step.isName = false) :
    step ∈ steps.foldl Component.follow trail := by
  induction steps generalizing trail with
  | nil => exact h
  | cons next steps ih => exact ih (mem_follow h hname next)

theorem follow_append {next : Component} (h : trail ≠ [] ∨ next ≠ parent) (base : List Component) :
    follow (trail ++ base) next = follow trail next ++ base := by
  cases trail with
  | nil =>
    cases next with
    | parent => simp at h
    | current => rfl
    | root | name => cases base <;> rfl
  | cons last trail => cases last <;> cases next <;> rfl

/-- A walk that does not climb above its beginning is the same from any other place. -/
theorem foldl_follow_append (h : parent ∉ steps.foldl Component.follow trail)
    (base : List Component) :
    steps.foldl Component.follow (trail ++ base) = steps.foldl Component.follow trail ++ base := by
  induction steps generalizing trail with
  | nil => rfl
  | cons next steps ih =>
    have hnext : trail ≠ [] ∨ next ≠ parent := by
      by_contra hclimbs
      rw [not_or, not_not, not_not] at hclimbs
      obtain ⟨rfl, rfl⟩ := hclimbs
      refine h ?_
      rw [List.foldl_cons]
      exact mem_foldl_follow (List.mem_singleton_self parent) rfl
    rw [List.foldl_cons, follow_append hnext, List.foldl_cons]
    exact ih h

theorem foldl_follow_of_isName (h : ∀ step ∈ steps, step.isName) :
    steps.foldl Component.follow trail = steps.reverse ++ trail := by
  induction steps generalizing trail with
  | nil => rfl
  | cons step steps ih =>
    have hstep := h step List.mem_cons_self
    have hparent : step ≠ parent := by
      rintro rfl
      cases hstep
    have hcurrent : step ≠ current := by
      rintro rfl
      cases hstep
    rw [List.foldl_cons, follow_eq_cons hparent hcurrent,
      ih fun other hmem => h other (List.mem_cons_of_mem _ hmem), List.reverse_cons,
      List.append_assoc]
    rfl

/-- What comes to names alone comes to them below other names. -/
theorem normalize_append {front : List Component} (hfront : ∀ step ∈ front, step.isName)
    (h : ∀ step ∈ normalize steps, step.isName) :
    normalize (front ++ steps) = front ++ normalize steps := by
  have hne : steps.foldl Component.follow [] ≠ [] := by
    intro hempty
    rw [normalize, hempty] at h
    cases h current List.mem_cons_self
  have hparent : parent ∉ steps.foldl Component.follow [] := by
    intro hmem
    rw [normalize_of_ne_nil hne] at h
    cases h parent (List.mem_reverse.mpr hmem)
  have hwalk : (front ++ steps).foldl Component.follow [] =
      steps.foldl Component.follow [] ++ front.reverse := by
    rw [List.foldl_append, foldl_follow_of_isName hfront, List.append_nil,
      ← foldl_follow_append hparent, List.nil_append]
  rw [normalize_of_ne_nil (by simp [hwalk, hne]), hwalk, normalize_of_ne_nil hne,
    List.reverse_append, List.reverse_reverse]

/-- What comes to names alone has not begun at the root. -/
theorem root_not_mem_of_normalize (h : ∀ step ∈ normalize steps, step.isName) : root ∉ steps := by
  intro hroot
  obtain ⟨before, after, rfl⟩ := List.append_of_mem hroot
  have hmem : root ∈ (before ++ root :: after).foldl Component.follow [] := by
    rw [List.foldl_append, List.foldl_cons, follow_eq_cons (by simp) (by simp)]
    exact mem_foldl_follow List.mem_cons_self rfl
  rw [normalize_of_ne_nil (List.ne_nil_of_mem hmem)] at h
  cases h root (List.mem_reverse.mpr hmem)

end Walks

section Characters

variable {c : Char} {steps trail : List Component} {step : Component}

theorem mem_of_mem_foldl_follow (h : step ∈ steps.foldl Component.follow trail) :
    step ∈ trail ∨ step ∈ steps := by
  have hfollow : ∀ {trail : List Component} {next : Component},
      step ∈ Component.follow trail next → step ∈ next :: trail := by
    intro trail next hmem
    unfold Component.follow at hmem
    split at hmem <;> simp_all
  induction steps generalizing trail with
  | nil => exact .inl h
  | cons next steps ih =>
    rcases ih h with hmem | hmem
    · rcases List.mem_cons.mp (hfollow hmem) with rfl | hmem
      · exact .inr List.mem_cons_self
      · exact .inl hmem
    · exact .inr (List.mem_cons_of_mem _ hmem)

theorem mem_of_mem_normalize (h : step ∈ normalize steps) : step = current ∨ step ∈ steps := by
  unfold normalize at h
  split at h
  case h_1 => exact .inl (List.mem_singleton.mp h)
  case h_2 =>
    rcases mem_of_mem_foldl_follow (List.mem_reverse.mp h) with hmem | hmem
    · cases hmem
    · exact .inr hmem

theorem mem_toList_intercalate {texts : List String}
    (h : c ∈ (String.intercalate "/" texts).toList) :
    c = '/' ∨ ∃ text ∈ texts, c ∈ text.toList := by
  induction texts with
  | nil => cases h
  | cons first others ih =>
    by_cases hlast : others = []
    · rw [hlast, String.intercalate_singleton] at h
      exact .inr ⟨first, List.mem_cons_self, h⟩
    · rw [toList_intercalate_cons first hlast, List.mem_append, List.mem_cons] at h
      rcases h with hfirst | hslash | hothers
      · exact .inr ⟨first, List.mem_cons_self, hfirst⟩
      · exact .inl hslash
      · rcases ih hothers with hslash | ⟨text, hmem, hc⟩
        · exact .inl hslash
        · exact .inr ⟨text, List.mem_cons_of_mem _ hmem, hc⟩

theorem mem_toList_render (h : c ∈ (render steps).toList) :
    c = '/' ∨ c = '.' ∨ ∃ name, .name name ∈ steps ∧ c ∈ name.toList := by
  have htext : ∀ step ∈ steps, c ∈ step.text.toList →
      c = '/' ∨ c = '.' ∨ ∃ name, .name name ∈ steps ∧ c ∈ name.toList := by
    intro step hmem hc
    cases step with
    | name name => exact .inr (.inr ⟨name, hmem, hc⟩)
    | root => exact .inl (by simpa [Component.text] using hc)
    | current | parent => exact .inr (.inl (by simpa [Component.text] using hc))
  have hjoined : ∀ {others : List Component}, others ⊆ steps →
      c ∈ (String.intercalate "/" (others.map Component.text)).toList →
        c = '/' ∨ c = '.' ∨ ∃ name, .name name ∈ steps ∧ c ∈ name.toList := by
    intro others hsub hc
    rcases mem_toList_intercalate hc with hslash | ⟨text, hmem, hc⟩
    · exact .inl hslash
    · obtain ⟨step, hstep, rfl⟩ := List.mem_map.mp hmem
      exact htext step (hsub hstep) hc
  unfold render at h
  split at h
  case h_1 rest =>
    rw [String.toList_append, List.mem_append] at h
    rcases h with hslash | hrest
    · exact .inl (by simpa using hslash)
    · exact hjoined (List.subset_cons_self _ _) hrest
  case h_2 => exact hjoined (List.Subset.refl _) h

end Characters

end Component

namespace Path

open Component (AreComponents normalize)

theorem components_ofComponents {steps : List Component} (h : AreComponents steps) :
    (ofComponents steps).components = normalize steps :=
  Component.ofChars_render_normalize h

theorem directory_subset (path : Path) : path.directory ⊆ path.components := by
  unfold Path.directory
  split
  · exact List.nil_subset _
  · exact List.dropLast_subset _

theorem root_not_mem_tail_directory (path : Path) : Component.root ∉ path.directory.tail := by
  intro hmem
  unfold Path.directory at hmem
  split at hmem
  · cases hmem
  · rw [List.tail_dropLast] at hmem
    exact (Component.areComponents_ofChars path.text.toList).2 (List.dropLast_subset _ hmem)

theorem areComponents_directory_append (path : Path) {text : String}
    (htext : text.toList.head? ≠ some '/') :
    AreComponents (path.directory ++ Component.ofChars text.toList) := by
  obtain ⟨hsteps, _⟩ := Component.areComponents_ofChars text.toList
  obtain ⟨hpath, _⟩ := Component.areComponents_ofChars path.text.toList
  have hrelative : Component.root ∉ Component.ofChars text.toList := by
    have hroot := Component.root_not_mem_stepsOf text.toList
    rcases Component.ofChars_cases text.toList with ⟨habsolute, _⟩ | ⟨_, hdot | hdot⟩
    · exact absurd habsolute htext
    · simpa [hdot] using hroot
    · rwa [hdot]
  constructor
  · intro step hmem
    rcases List.mem_append.mp hmem with hmem | hmem
    · exact hpath step (path.directory_subset hmem)
    · exact hsteps step hmem
  · have hinside := path.root_not_mem_tail_directory
    cases hdirectory : path.directory with
    | nil => exact fun hmem => hrelative (List.mem_of_mem_tail hmem)
    | cons first others =>
      rw [hdirectory] at hinside
      rw [List.cons_append, List.tail_cons, List.mem_append, not_or]
      exact ⟨hinside, hrelative⟩

section Characters

variable {c : Char} {steps : List Component}

/-- A normal form is written with slashes, dots and the characters of its names. -/
theorem mem_text_ofComponents (h : c ∈ (ofComponents steps).text.toList) :
    c = '/' ∨ c = '.' ∨ ∃ name, .name name ∈ steps ∧ c ∈ name.toList := by
  rcases Component.mem_toList_render h with hslash | hdot | ⟨name, hmem, hc⟩
  · exact .inl hslash
  · exact .inr (.inl hdot)
  · rcases Component.mem_of_mem_normalize hmem with hcurrent | hmem
    · cases hcurrent
    · exact .inr (.inr ⟨name, hmem, hc⟩)

theorem mem_text_normal {text : String} (h : c ∈ (normal text).text.toList) :
    c = '/' ∨ c = '.' ∨ c ∈ text.toList := by
  rcases mem_text_ofComponents h with hslash | hdot | ⟨name, hmem, hc⟩
  · exact .inl hslash
  · exact .inr (.inl hdot)
  · exact .inr (.inr (Component.subset_of_name_mem hmem hc))

theorem mem_text_resolve {path : Path} {text : String}
    (h : c ∈ (path.resolve text).text.toList) :
    c = '/' ∨ c = '.' ∨ c ∈ path.text.toList ∨ c ∈ text.toList := by
  unfold resolve at h
  split at h
  case isTrue => exact (mem_text_normal h).imp_right (Or.imp_right .inr)
  case isFalse =>
    rcases mem_text_ofComponents h with hslash | hdot | ⟨name, hmem, hc⟩
    · exact .inl hslash
    · exact .inr (.inl hdot)
    · rcases List.mem_append.mp hmem with hmem | hmem
      · have hpath := path.directory_subset hmem
        exact .inr (.inr (.inl (Component.subset_of_name_mem hpath hc)))
      · exact .inr (.inr (.inr (Component.subset_of_name_mem hmem hc)))

theorem fileName_subset (path : Path) : path.fileName.toList ⊆ path.text.toList := by
  unfold fileName
  split
  case h_1 name hlast => exact Component.subset_of_name_mem (List.mem_of_getLast? hlast)
  case h_2 => exact List.Subset.refl _

end Characters

end Path

end ShaderInline
