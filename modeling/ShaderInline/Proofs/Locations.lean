import ShaderInline.Proofs.NormalForm

/-!
# Lexical locations

A path leads from a directory to a location, the names on the way there from the root. The location
is found from the text alone: names are entered, a pair of dots leaves the last name, and nothing
lies above the root. A normal form leads wherever its path leads, and two paths have one normal form
exactly if they lead to the same location from every directory. So the identity of a file is what
its path says about locations and nothing else.
-/
namespace ShaderInline

namespace Component

/-- Where a component leads. -/
def leadFrom (location : List String) : Component → List String
  | root => []
  | current => location
  | parent => location.dropLast
  | name text => location ++ [text]

/-- The components that lead from the root, or up from a directory, and then through names. -/
def form : Option Nat → List String → List Component
  | none, names => root :: names.map name
  | some climbs, names => List.replicate climbs parent ++ names.map name

theorem leadFrom_follow (trail : List Component) (step : Component) (location : List String) :
    (follow trail step).reverse.foldl leadFrom location =
      leadFrom (trail.reverse.foldl leadFrom location) step := by
  cases trail with
  | nil => cases step <;> rfl
  | cons last trail => cases last <;> cases step <;> simp [follow, leadFrom]

/-- A walk that folds parents into names leads where the components lead one by one. -/
theorem foldl_leadFrom_follow (steps trail : List Component) (location : List String) :
    (steps.foldl follow trail).reverse.foldl leadFrom location =
      steps.foldl leadFrom (trail.reverse.foldl leadFrom location) := by
  induction steps generalizing trail with
  | nil => rfl
  | cons step steps ih => rw [List.foldl_cons, List.foldl_cons, ih, leadFrom_follow]

theorem foldl_leadFrom_normalize (steps : List Component) (location : List String) :
    (normalize steps).foldl leadFrom location = steps.foldl leadFrom location := by
  have hwalk := foldl_leadFrom_follow steps [] location
  by_cases hempty : steps.foldl follow [] = []
  · rw [hempty] at hwalk
    rw [normalize, hempty]
    exact hwalk
  · rw [normalize_of_ne_nil hempty]
    exact hwalk

theorem foldl_leadFrom_names (names location : List String) :
    (names.map name).foldl leadFrom location = location ++ names := by
  induction names generalizing location with
  | nil => simp
  | cons text names ih => simp [leadFrom, ih]

theorem foldl_leadFrom_parents (climbs depth : Nat) (text : String) :
    (List.replicate climbs parent).foldl leadFrom (List.replicate depth text) =
      List.replicate (depth - climbs) text := by
  induction climbs generalizing depth with
  | zero => rfl
  | succ climbs ih =>
    rw [List.replicate_succ, List.foldl_cons, leadFrom, List.dropLast_replicate, ih]
    congr 1
    omega

theorem foldl_leadFrom_form_none (names location : List String) :
    (form none names).foldl leadFrom location = names := by
  simp [form, leadFrom, foldl_leadFrom_names]

theorem foldl_leadFrom_form_some (climbs depth : Nat) (text : String) (names : List String) :
    (form (some climbs) names).foldl leadFrom (List.replicate depth text) =
      List.replicate (depth - climbs) text ++ names := by
  rw [form, List.foldl_append, foldl_leadFrom_parents, foldl_leadFrom_names]

section Forms

variable {steps steps' trail : List Component} {step : Component}
variable {climbs climbs' : Option Nat} {names names' : List String}

/-- Whether two walks lead to the same location from every directory. -/
def LeadAlike (steps steps' : List Component) : Prop :=
  ∀ directory, (∀ name ∈ directory, IsName name) →
    steps.foldl leadFrom directory = steps'.foldl leadFrom directory

theorem LeadAlike.symm (h : LeadAlike steps steps') : LeadAlike steps' steps :=
  fun directory hdirectory => (h directory hdirectory).symm

/-- Directories of one repeated name are enough to tell two forms apart. -/
theorem LeadAlike.replicate (h : LeadAlike steps steps') (depth : Nat) (text : String)
    (htext : IsName text) :
    steps.foldl leadFrom (List.replicate depth text) =
      steps'.foldl leadFrom (List.replicate depth text) := by
  apply h
  intro name hname
  rwa [List.eq_of_mem_replicate hname]

/-- Whether a walk, listed innermost component first, is such a form. -/
def IsForm (trail : List Component) : Prop := ∃ climbs names, trail.reverse = form climbs names

theorem IsForm.follow (h : IsForm trail) (hstep : step.IsStep ∨ step = current) :
    IsForm (Component.follow trail step) := by
  obtain ⟨climbs, names, htrail⟩ := h
  obtain rfl : trail = (form climbs names).reverse := by rw [← htrail, List.reverse_reverse]
  cases step with
  | root => simp [IsStep] at hstep
  | current => exact ⟨climbs, names, List.reverse_reverse _⟩
  | name text =>
    refine ⟨climbs, names ++ [text], ?_⟩
    rw [follow_eq_cons (by simp) (by simp)]
    cases climbs <;> simp [form]
  | parent =>
    -- It cancels the last name, and climbs only where no name is left.
    rcases List.eq_nil_or_concat names with rfl | ⟨names, last, rfl⟩
    · cases climbs with
      | none => exact ⟨none, [], rfl⟩
      | some climbs =>
        have htrail : (form (some climbs) []).reverse = List.replicate climbs parent := by
          simp [form]
        have hclimb : Component.follow (List.replicate climbs parent) parent =
            List.replicate (climbs + 1) parent := by
          cases climbs <;> rfl
        exact ⟨some (climbs + 1), [], by rw [htrail, hclimb]; simp [form]⟩
    · refine ⟨climbs, names, ?_⟩
      cases climbs <;> simp [form, Component.follow]

theorem AreComponents.isForm (h : AreComponents steps) : IsForm (steps.foldl follow []) :=
  h.foldl_follow ⟨some 0, [], rfl⟩ ⟨none, [], rfl⟩ fun _ _ => IsForm.follow

/-- A relative path leads elsewhere from a deeper directory, and an absolute one does not. -/
theorem not_leadAlike_root (climbs : Nat) :
    ¬ LeadAlike (form none names) (form (some climbs) names') := by
  intro h
  have hat := h.replicate climbs "a" (by decide)
  have habove := h.replicate (climbs + 1) "a" (by decide)
  rw [foldl_leadFrom_form_none, foldl_leadFrom_form_some] at hat habove
  have hlength := congrArg List.length (hat.symm.trans habove)
  simp at hlength

/-- Where one form climbs higher than another, the other one keeps a name of the directory. -/
theorem not_leadAlike_of_lt {climbs climbs' : Nat} (hlt : climbs < climbs') :
    ¬ LeadAlike (form (some climbs) names) (form (some climbs') names') := by
  intro h
  -- At this depth the second form has left every name behind, and the first one has not.
  have ha := h.replicate climbs' "a" (by decide)
  have hb := h.replicate climbs' "b" (by decide)
  obtain ⟨kept, hkept⟩ := Nat.exists_eq_add_one_of_ne_zero (Nat.sub_ne_zero_of_lt hlt)
  rw [foldl_leadFrom_form_some, foldl_leadFrom_form_some, Nat.sub_self, hkept] at ha hb
  have hheads := congrArg List.head? (ha.trans hb.symm)
  simp [List.replicate_succ] at hheads

theorem form_eq_form (h : LeadAlike (form climbs names) (form climbs' names')) :
    form climbs names = form climbs' names' := by
  cases climbs with
  | none =>
    cases climbs' with
    | none =>
      have hnames := h.replicate 0 "a" (by decide)
      rw [foldl_leadFrom_form_none, foldl_leadFrom_form_none] at hnames
      rw [hnames]
    | some climbs' => exact absurd h (not_leadAlike_root climbs')
  | some climbs =>
    cases climbs' with
    | none => exact absurd h.symm (not_leadAlike_root climbs)
    | some climbs' =>
      obtain rfl : climbs = climbs' := by
        by_contra hne
        rcases Nat.lt_or_gt_of_ne hne with hlt | hgt
        · exact not_leadAlike_of_lt hlt h
        · exact not_leadAlike_of_lt hgt h.symm
      have hnames := h.replicate climbs "a" (by decide)
      rw [foldl_leadFrom_form_some, foldl_leadFrom_form_some] at hnames
      rw [List.append_cancel_left hnames]

/-- Components have one normal form exactly if they lead to the same locations. -/
theorem normalize_eq_normalize_iff (h : AreComponents steps) (h' : AreComponents steps') :
    normalize steps = normalize steps' ↔ LeadAlike steps steps' := by
  constructor
  · intro hnormal directory _
    rw [← foldl_leadFrom_normalize, hnormal, foldl_leadFrom_normalize]
  · intro halike
    obtain ⟨climbs, names, hform⟩ := h.isForm
    obtain ⟨climbs', names', hform'⟩ := h'.isForm
    have hforms : LeadAlike (form climbs names) (form climbs' names') := by
      intro directory hdirectory
      rw [← hform, ← hform', foldl_leadFrom_follow, foldl_leadFrom_follow]
      exact halike directory hdirectory
    have htrails : steps.foldl follow [] = steps'.foldl follow [] := by
      rw [← List.reverse_inj, hform, hform', form_eq_form hforms]
    rw [normalize, normalize, htrails]

theorem areComponents_normalize (h : AreComponents steps) : AreComponents (normalize steps) := by
  rw [← ofChars_render_normalize h]
  exact areComponents_ofChars _

theorem normalize_normalize (h : AreComponents steps) :
    normalize (normalize steps) = normalize steps :=
  (normalize_eq_normalize_iff (areComponents_normalize h) h).mpr
    fun directory _ => foldl_leadFrom_normalize steps directory

end Forms

/-- The stretches between slashes are the parts of a text that is split there. -/
theorem segments_eq_splitOn (cs : List Char) : segments cs = cs.splitOn '/' := by
  induction cs with
  | nil => rfl
  | cons c cs ih =>
    rw [segments, ih, List.splitOn_cons_eq_if_modifyHead]
    by_cases hc : c = '/'
    · simp [hc]
    · rw [if_neg hc, if_neg (by simpa using hc)]
      cases hsplit : cs.splitOn '/' with
      | nil => exact absurd hsplit (List.splitOn_ne_nil _ _)
      | cons => rfl

end Component

namespace Path

open Component (AreComponents normalize)

/-- Where a stretch between slashes leads. -/
def enter (location : List String) (stretch : List Char) : List String :=
  if stretch = [] ∨ stretch = ['.'] then location
  else if stretch = ['.', '.'] then location.dropLast
  else location ++ [String.ofList stretch]

/-- The location that a path leads to from a directory, which an absolute path does not look at. -/
def locationFrom (directory : List String) (text : String) : List String :=
  (text.toList.splitOn '/').foldl enter (if text.toList.head? = some '/' then [] else directory)

section Locations

variable {steps : List Component} {text other name : String}

theorem foldl_enter_splitOn (cs : List Char) (location : List String) :
    (cs.splitOn '/').foldl enter location =
      (Component.stepsOf cs).foldl Component.leadFrom location := by
  rw [Component.stepsOf, List.foldl_filterMap, Component.segments_eq_splitOn]
  congr 1
  funext location stretch
  simp only [enter, Component.ofSegment?]
  by_cases hstays : stretch = [] ∨ stretch = ['.']
  · rw [if_pos hstays, if_pos hstays]
  · rw [if_neg hstays, if_neg hstays]
    by_cases hparent : stretch = ['.', '.']
    · rw [if_pos hparent, if_pos hparent]
      rfl
    · rw [if_neg hparent, if_neg hparent]
      rfl

/-- A path leads where its components lead. -/
theorem locationFrom_eq (directory : List String) (text : String) :
    locationFrom directory text =
      (Component.ofChars text.toList).foldl Component.leadFrom directory := by
  rw [locationFrom, foldl_enter_splitOn]
  rcases Component.ofChars_cases text.toList with ⟨hroot, hsteps⟩ | ⟨hroot, hsteps | hsteps⟩
  · rw [if_pos hroot, hsteps]
    rfl
  · rw [if_neg hroot, hsteps]
    rfl
  · rw [if_neg hroot, hsteps]

theorem locationFrom_ofComponents (h : AreComponents steps) (directory : List String) :
    locationFrom directory (ofComponents steps).text =
      steps.foldl Component.leadFrom directory := by
  rw [locationFrom_eq, ← Component.foldl_leadFrom_normalize steps, ← components_ofComponents h]
  rfl

theorem locationFrom_normal (directory : List String) (text : String) :
    locationFrom directory (normal text).text = locationFrom directory text := by
  rw [normal, locationFrom_ofComponents (Component.areComponents_ofChars _), ← locationFrom_eq]

theorem normal_ofComponents (h : AreComponents steps) :
    normal (ofComponents steps).text = ofComponents steps := by
  have hread : Component.ofChars (ofComponents steps).text.toList = normalize steps :=
    components_ofComponents h
  rw [normal, hread, ofComponents, Component.normalize_normalize h, ofComponents]

theorem normal_eq_normal_iff :
    normal text = normal other ↔ ∀ directory, (∀ name ∈ directory, Component.IsName name) →
      locationFrom directory text = locationFrom directory other := by
  have h := Component.areComponents_ofChars text.toList
  have h' := Component.areComponents_ofChars other.toList
  have hnormal : normal text = normal other ↔
      normalize (Component.ofChars text.toList) = normalize (Component.ofChars other.toList) := by
    constructor
    · intro heq
      rw [← components_ofComponents h, ← components_ofComponents h']
      exact congrArg components heq
    · intro heq
      rw [normal, normal, ofComponents, ofComponents, heq]
  rw [hnormal, Component.normalize_eq_normalize_iff h h']
  simp only [Component.LeadAlike, locationFrom_eq]

theorem locationFrom_of_absolute (h : text.toList.head? = some '/')
    (directory directory' : List String) :
    locationFrom directory text = locationFrom directory' text := by
  rw [locationFrom, locationFrom, if_pos h, if_pos h]

/-- The directory of a file is its location without the last name. -/
theorem foldl_leadFrom_directory {path : Path}
    (h : path.components.getLast? = some (.name name)) (location : List String) :
    path.directory.foldl Component.leadFrom location =
      (path.components.foldl Component.leadFrom location).dropLast := by
  have hdirectory : path.directory = path.components.dropLast :=
    if_neg (by rw [h]; simp)
  have hlast : path.components = path.components.dropLast ++ [.name name] :=
    (List.dropLast_append_getLast? _ h).symm
  rw [hdirectory, hlast, List.foldl_append, List.dropLast_concat]
  simp [Component.leadFrom]

theorem locationFrom_resolve {path : Path} (h : path.components.getLast? = some (.name name))
    (importText : String) (directory : List String) :
    locationFrom directory (path.resolve importText).text =
      locationFrom (locationFrom directory path.text).dropLast importText := by
  unfold resolve
  by_cases habsolute : importText.toList.head? = some '/'
  · rw [if_pos habsolute, locationFrom_normal]
    exact locationFrom_of_absolute habsolute _ _
  · rw [if_neg habsolute,
      locationFrom_ofComponents (areComponents_directory_append path habsolute),
      List.foldl_append, foldl_leadFrom_directory h, locationFrom_eq _ importText,
      locationFrom_eq directory]
    rfl

theorem normal_resolve (path : Path) (importText : String) :
    normal (path.resolve importText).text = path.resolve importText := by
  unfold resolve
  by_cases habsolute : importText.toList.head? = some '/'
  · rw [if_pos habsolute]
    exact normal_ofComponents (Component.areComponents_ofChars _)
  · rw [if_neg habsolute]
    exact normal_ofComponents (areComponents_directory_append path habsolute)

end Locations

/-- The identity of a file is its lexical location. A normal form leads wherever its path leads, two
paths have one normal form exactly if they lead to one location from every directory, and a normal
form is its own one. An import leads to where its text leads from the directory of the file that it
stands in. -/
theorem normal_represents_location (text : String) :
    (∀ directory, locationFrom directory (normal text).text = locationFrom directory text) ∧
    (∀ other, normal text = normal other ↔
      ∀ directory, (∀ name ∈ directory, Component.IsName name) →
        locationFrom directory text = locationFrom directory other) ∧
    normal (normal text).text = normal text ∧
    ∀ name, (normal text).components.getLast? = some (.name name) → ∀ importText,
      let path := (normal text).resolve importText
      normal path.text = path ∧ ∀ directory, locationFrom directory path.text =
        locationFrom (locationFrom directory (normal text).text).dropLast importText := by
  have hcomponents := Component.areComponents_ofChars text.toList
  refine ⟨fun directory => locationFrom_normal directory text, fun other => normal_eq_normal_iff,
    normal_ofComponents hcomponents, ?_⟩
  intro name hname importText
  exact ⟨normal_resolve _ importText, locationFrom_resolve hname importText⟩

/-- An import that leads above the directory from which its file was named. -/
theorem normal_represents_location_climbing :
    let file := normal "../lib/./x//../common.glsl"
    let path := file.resolve "../..//main.glsl"
    file.components.getLast? = some (.name "common.glsl") ∧ path.text = "../../main.glsl" ∧
      locationFrom ["home", "user", "work"] path.text = ["home", "main.glsl"] := by
  intro file path
  have hname : file.components.getLast? = some (.name "common.glsl") := by decide +kernel
  obtain ⟨_, _, _, hresolve⟩ := normal_represents_location "../lib/./x//../common.glsl"
  obtain ⟨_, hlocation⟩ := hresolve "common.glsl" hname "../..//main.glsl"
  refine ⟨hname, by decide +kernel, ?_⟩
  rw [hlocation]
  decide +kernel

end Path

end ShaderInline
