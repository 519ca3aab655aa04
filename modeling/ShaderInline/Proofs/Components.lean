import Mathlib.Data.List.Basic
import ShaderInline.Path.Normal

/-!
# The components of a text

A text is cut at its slashes, and each stretch between two of them stands for one component or for
none. Texts that are put together with slashes are read part by part, so the text of components
reads as those components. The names in a path are written with the characters of the path.
-/
namespace ShaderInline

namespace Component

/-- Whether a text can be the name of a component. -/
def IsName (text : String) : Prop := text ≠ "" ∧ '/' ∉ text.toList ∧ text ≠ "." ∧ text ≠ ".."

instance (text : String) : Decidable (IsName text) :=
  inferInstanceAs (Decidable (_ ∧ _ ∧ _ ∧ _))

/-- Whether these are the names of directories, each in the one before it. -/
def AreNames (names : List String) : Prop := names ≠ [] ∧ ∀ name ∈ names, IsName name

instance (names : List String) : Decidable (AreNames names) :=
  inferInstanceAs (Decidable (_ ∧ _))

/-- Whether a stretch between slashes stands for the component. -/
def IsStep : Component → Prop
  | name text => IsName text
  | parent => True
  | root | current => False

def isName : Component → Bool
  | name _ => true
  | root | current | parent => false

/-- Whether a path can have these components. -/
def AreComponents (steps : List Component) : Prop :=
  (∀ step ∈ steps, step.IsStep ∨ step = root ∨ step = current) ∧ root ∉ steps.tail

/-- What the stretches between slashes stand for. -/
def stepsOf (cs : List Char) : List Component := (segments cs).filterMap ofSegment?

section Segments

variable {cs : List Char} {step : Component} {steps : List Component}

theorem segments_ne_nil (cs : List Char) : segments cs ≠ [] := by
  cases cs with
  | nil => simp [segments]
  | cons c cs =>
    unfold segments
    split
    · simp
    · split <;> simp

theorem segments_append_slash (cs rest : List Char) :
    segments (cs ++ '/' :: rest) = segments cs ++ segments rest := by
  induction cs with
  | nil => simp [segments]
  | cons c cs ih =>
    rw [List.cons_append, segments, segments, ih]
    split
    · rfl
    · cases hsegments : segments cs with
      | nil => exact absurd hsegments (segments_ne_nil cs)
      | cons segment others => rfl

theorem segments_of_not_mem (h : '/' ∉ cs) : segments cs = [cs] := by
  induction cs with
  | nil => rfl
  | cons c cs ih =>
    rw [List.mem_cons, not_or] at h
    rw [segments, if_neg (Ne.symm h.1), ih h.2]

theorem slash_not_mem_of_mem_segments {segment : List Char} (h : segment ∈ segments cs) :
    '/' ∉ segment := by
  induction cs generalizing segment with
  | nil => simp_all [segments]
  | cons c cs ih =>
    unfold segments at h
    split at h
    case isTrue =>
      rcases List.mem_cons.mp h with rfl | h
      · simp
      · exact ih h
    case isFalse hc =>
      cases hsegments : segments cs with
      | nil => exact absurd hsegments (segments_ne_nil cs)
      | cons first others =>
        rw [hsegments] at ih h
        rcases List.mem_cons.mp h with rfl | h
        · simp [Ne.symm hc, ih List.mem_cons_self]
        · exact ih (List.mem_cons_of_mem _ h)

theorem isStep_of_ofSegment? {segment : List Char} (h : ofSegment? segment = some step)
    (hslash : '/' ∉ segment) : step.IsStep := by
  unfold ofSegment? at h
  split at h
  case isTrue => cases h
  case isFalse hsegment =>
    split at h
    case isTrue =>
      cases h
      trivial
    case isFalse hparent =>
      cases h
      rw [not_or] at hsegment
      refine ⟨?_, by simpa using hslash, ?_, ?_⟩
      · exact fun htext => hsegment.1 (by simpa using congrArg String.toList htext)
      · exact fun htext => hsegment.2 (by simpa using congrArg String.toList htext)
      · exact fun htext => hparent (by simpa using congrArg String.toList htext)

theorem ofSegment?_text (h : step.IsStep) : ofSegment? step.text.toList = some step := by
  cases step with
  | root | current => cases h
  | parent => decide
  | name text =>
    obtain ⟨hempty, _, hdot, hdots⟩ := h
    have hsegment : ¬ (text.toList = [] ∨ text.toList = ['.']) := by
      rintro (hchars | hchars)
      · exact hempty (String.toList_inj.mp hchars)
      · exact hdot (String.toList_inj.mp hchars)
    have hparent : text.toList ≠ ['.', '.'] := fun hchars => hdots (String.toList_inj.mp hchars)
    rw [Component.text, ofSegment?, if_neg hsegment, if_neg hparent, String.ofList_toList]

theorem slash_not_mem_text (h : step.IsStep) : '/' ∉ step.text.toList := by
  cases step with
  | name text => exact h.2.1
  | parent => decide
  | root | current => cases h

theorem text_ne_of_isStep (h : step.IsStep) : step.text.toList ≠ [] ∧ step.text.toList ≠ ['.'] := by
  cases step with
  | root | current => cases h
  | parent => decide
  | name text =>
    obtain ⟨hempty, _, hdot, _⟩ := h
    exact ⟨fun hchars => hempty (String.toList_inj.mp hchars),
      fun hchars => hdot (String.toList_inj.mp hchars)⟩

theorem isStep_of_mem_stepsOf (h : step ∈ stepsOf cs) : step.IsStep := by
  obtain ⟨segment, hsegment, hstep⟩ := List.mem_filterMap.mp h
  exact isStep_of_ofSegment? hstep (slash_not_mem_of_mem_segments hsegment)

theorem stepsOf_append_slash (cs rest : List Char) :
    stepsOf (cs ++ '/' :: rest) = stepsOf cs ++ stepsOf rest := by
  rw [stepsOf, segments_append_slash, List.filterMap_append]
  rfl

theorem stepsOf_text (h : step.IsStep) : stepsOf step.text.toList = [step] := by
  rw [stepsOf, segments_of_not_mem (slash_not_mem_text h), List.filterMap_cons,
    ofSegment?_text h]
  rfl

theorem toList_intercalate_cons (first : String) {others : List String} (h : others ≠ []) :
    (String.intercalate "/" (first :: others)).toList =
      first.toList ++ '/' :: (String.intercalate "/" others).toList := by
  cases others with
  | nil => exact absurd rfl h
  | cons next others =>
    rw [String.intercalate_cons_cons, String.toList_append, String.toList_append,
      List.append_assoc]
    rfl

theorem intercalate_append {front back : List String} (hfront : front ≠ []) (hback : back ≠ []) :
    String.intercalate "/" (front ++ back) =
      String.intercalate "/" front ++ "/" ++ String.intercalate "/" back := by
  induction front with
  | nil => exact absurd rfl hfront
  | cons first front ih =>
    apply String.toList_injective
    by_cases hlast : front = []
    · rw [hlast, List.singleton_append, toList_intercalate_cons first hback]
      simp
    · rw [List.cons_append, toList_intercalate_cons first (by simp [hlast]), ih hlast]
      simp only [String.toList_append, toList_intercalate_cons first hlast]
      simp

/-- A text of components reads as these components. -/
theorem stepsOf_intercalate (h : ∀ step ∈ steps, step.IsStep) :
    stepsOf (String.intercalate "/" (steps.map text)).toList = steps := by
  induction steps with
  | nil => rfl
  | cons step steps ih =>
    have hstep := stepsOf_text (h step List.mem_cons_self)
    have hsteps := ih fun other hmem => h other (List.mem_cons_of_mem _ hmem)
    by_cases hlast : steps = []
    · rw [hlast, List.map_singleton, String.intercalate_singleton, hstep]
    · rw [List.map_cons, toList_intercalate_cons _ (by simpa using hlast),
        stepsOf_append_slash, hstep, hsteps]
      rfl

theorem ofChars_of_slash (h : cs.head? = some '/') : ofChars cs = root :: stepsOf cs := if_pos h

/-- A first stretch that is neither empty nor a dot makes no component of its own. -/
theorem ofChars_append {segment rest : List Char} (hne : segment ≠ []) (hslash : '/' ∉ segment)
    (hdot : segment ≠ ['.']) (hrest : rest = [] ∨ ∃ more, rest = '/' :: more) :
    ofChars (segment ++ rest) = stepsOf (segment ++ rest) := by
  have hhead : (segment ++ rest).head? ≠ some '/' := by
    cases segment with
    | nil => exact absurd rfl hne
    | cons c segment =>
      rintro hc
      cases hc
      exact hslash List.mem_cons_self
  have hfirst : (segments (segment ++ rest)).head? = some segment := by
    rcases hrest with rfl | ⟨more, rfl⟩
    · rw [List.append_nil, segments_of_not_mem hslash]
      rfl
    · rw [segments_append_slash, segments_of_not_mem hslash]
      rfl
  have hcurrent : (segments (segment ++ rest)).head? ≠ some ['.'] := by
    rw [hfirst]
    exact fun h => hdot (Option.some.inj h)
  simp only [ofChars, if_neg hhead, if_neg hcurrent]
  rfl

/-- A path begins with the root, with a dot or with a step, and goes on in steps. -/
theorem ofChars_cases (cs : List Char) :
    (cs.head? = some '/' ∧ ofChars cs = root :: stepsOf cs) ∨
      cs.head? ≠ some '/' ∧ (ofChars cs = current :: stepsOf cs ∨ ofChars cs = stepsOf cs) := by
  by_cases hroot : cs.head? = some '/'
  · exact .inl ⟨hroot, ofChars_of_slash hroot⟩
  · by_cases hdot : (segments cs).head? = some ['.']
    · exact .inr ⟨hroot, .inl (by simp only [ofChars, if_neg hroot, if_pos hdot]; rfl)⟩
    · exact .inr ⟨hroot, .inr (by simp only [ofChars, if_neg hroot, if_neg hdot]; rfl)⟩

theorem root_not_mem_stepsOf (cs : List Char) : root ∉ stepsOf cs :=
  fun h => (isStep_of_mem_stepsOf h).elim

theorem areComponents_ofChars (cs : List Char) : AreComponents (ofChars cs) := by
  have hsteps : ∀ step ∈ stepsOf cs, step.IsStep ∨ step = root ∨ step = current :=
    fun step hmem => .inl (isStep_of_mem_stepsOf hmem)
  rcases ofChars_cases cs with ⟨_, h⟩ | ⟨_, h | h⟩ <;> rw [h]
  · exact ⟨by simpa using hsteps, root_not_mem_stepsOf cs⟩
  · exact ⟨by simpa using hsteps, root_not_mem_stepsOf cs⟩
  · exact ⟨hsteps, fun hmem => root_not_mem_stepsOf cs (List.mem_of_mem_tail hmem)⟩

theorem render_eq_intercalate (h : root ∉ steps) :
    render steps = String.intercalate "/" (steps.map text) := by
  cases steps with
  | nil => rfl
  | cons step steps =>
    cases step with
    | root => exact absurd List.mem_cons_self h
    | current | parent | name => rfl

/-- A text that begins with steps, and goes on behind a slash if it does. -/
theorem ofChars_intercalate_append (h : ∀ step ∈ steps, step.IsStep) (hne : steps ≠ [])
    {rest : List Char} (hrest : rest = [] ∨ ∃ more, rest = '/' :: more) :
    ofChars ((String.intercalate "/" (steps.map text)).toList ++ rest) =
      stepsOf ((String.intercalate "/" (steps.map text)).toList ++ rest) := by
  cases steps with
  | nil => exact absurd rfl hne
  | cons step steps =>
    have hstep := h step List.mem_cons_self
    obtain ⟨hempty, hdot⟩ := text_ne_of_isStep hstep
    by_cases hlast : steps = []
    · rw [hlast, List.map_singleton, String.intercalate_singleton]
      exact ofChars_append hempty (slash_not_mem_text hstep) hdot hrest
    · rw [List.map_cons, toList_intercalate_cons _ (by simpa using hlast), List.append_assoc]
      exact ofChars_append hempty (slash_not_mem_text hstep) hdot (.inr ⟨_, rfl⟩)

theorem ofChars_intercalate (h : ∀ step ∈ steps, step.IsStep) :
    ofChars (String.intercalate "/" (steps.map text)).toList = steps := by
  by_cases hne : steps = []
  · rw [hne]
    rfl
  · have hread := ofChars_intercalate_append h hne (.inl rfl)
    rwa [List.append_nil, stepsOf_intercalate h] at hread

theorem subset_of_mem_segments {segment : List Char} (h : segment ∈ segments cs) :
    segment ⊆ cs := by
  induction cs generalizing segment with
  | nil => simp_all [segments]
  | cons c cs ih =>
    unfold segments at h
    split at h
    case isTrue =>
      rcases List.mem_cons.mp h with rfl | h
      · exact List.nil_subset _
      · exact List.subset_cons_of_subset _ (ih h)
    case isFalse =>
      cases hsegments : segments cs with
      | nil => exact absurd hsegments (segments_ne_nil cs)
      | cons first others =>
        rw [hsegments] at ih h
        rcases List.mem_cons.mp h with rfl | h
        · exact List.cons_subset_cons _ (ih List.mem_cons_self)
        · exact List.subset_cons_of_subset _ (ih (List.mem_cons_of_mem _ h))

/-- The names in a path are written with the characters of the path. -/
theorem subset_of_name_mem {name : String} (h : .name name ∈ ofChars cs) : name.toList ⊆ cs := by
  have hsteps : .name name ∈ stepsOf cs := by
    rcases ofChars_cases cs with ⟨_, hfirst⟩ | ⟨_, hfirst | hfirst⟩ <;> rw [hfirst] at h
    · simpa using h
    · simpa using h
    · exact h
  obtain ⟨segment, hsegment, hname⟩ := List.mem_filterMap.mp hsteps
  have htext : name = String.ofList segment := by
    unfold ofSegment? at hname
    split at hname
    · cases hname
    · split at hname <;> cases hname
      rfl
  rw [htext, String.toList_ofList]
  exact subset_of_mem_segments hsegment

end Segments

end Component

end ShaderInline
