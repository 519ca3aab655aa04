import ShaderInline.Proofs.NormalForm

/-!
# Paths below a directory

A relative path that is made of names alone may be put below any directory. Its components, its
normal form and its file name are then those of the path with the directory in front, and what it
imports is found below the directory too.
-/
namespace ShaderInline

namespace Path

open Component (AreNames AreComponents normalize stepsOf)

/-- Whether a path is relative and made of names alone. -/
def IsPlain (path : Path) : Prop :=
  path.components ≠ [] ∧ ∀ step ∈ path.components, step.isName

instance (path : Path) : Decidable path.IsPlain := inferInstanceAs (Decidable (_ ∧ _))

/-- The text of a path below a directory. -/
def textUnder (directory : List String) (text : String) : String :=
  String.intercalate "/" directory ++ "/" ++ text

def under (directory : List String) (path : Path) : Path := ⟨textUnder directory path.text⟩

variable {directory : List String} {path other : Path} {steps : List Component} {text : String}

theorem isStep_of_areNames (h : AreNames directory) :
    ∀ step ∈ directory.map Component.name, step.IsStep := by
  intro step hmem
  obtain ⟨name, hname, rfl⟩ := List.mem_map.mp hmem
  exact h.2 name hname

/-- A text below a directory begins with its names, whatever it is. -/
theorem ofChars_textUnder (h : AreNames directory) (text : String) :
    Component.ofChars (textUnder directory text).toList =
      directory.map .name ++ stepsOf text.toList := by
  have hsteps := isStep_of_areNames h
  have htexts : (directory.map Component.name).map Component.text = directory := by
    simp [Component.text, Function.comp_def]
  have hread := Component.ofChars_intercalate_append hsteps (by simpa using h.1)
    (.inr ⟨text.toList, rfl⟩)
  rw [Component.stepsOf_append_slash, Component.stepsOf_intercalate hsteps, htexts] at hread
  rw [← hread]
  simp [textUnder]

theorem ofComponents_under (hdirectory : AreNames directory) (hsteps : AreComponents steps)
    (h : (ofComponents steps).IsPlain) :
    ofComponents (directory.map .name ++ steps) = (ofComponents steps).under directory := by
  obtain ⟨hne, hnames⟩ := h
  rw [components_ofComponents hsteps] at hne hnames
  have hfront : ∀ step ∈ directory.map Component.name, step.isName := by simp [Component.isName]
  have hroot : ∀ {steps : List Component}, (∀ step ∈ steps, step.isName) → Component.root ∉ steps :=
    fun h hmem => nomatch h _ hmem
  have hall : ∀ step ∈ directory.map Component.name ++ normalize steps, step.isName := by
    intro step hmem
    rcases List.mem_append.mp hmem with hmem | hmem
    · exact hfront step hmem
    · exact hnames step hmem
  have htexts : (directory.map Component.name).map Component.text = directory := by
    simp [Component.text, Function.comp_def]
  rw [ofComponents, Component.normalize_append hfront hnames,
    Component.render_eq_intercalate (hroot hall), List.map_append, htexts,
    Component.intercalate_append hdirectory.1 (by simpa using hne), under, textUnder, ofComponents,
    Component.render_eq_intercalate (hroot hnames)]

theorem components_eq_stepsOf (h : path.IsPlain) : path.components = stepsOf path.text.toList := by
  have hnames := h.2
  rcases Component.ofChars_cases path.text.toList with ⟨_, hroot⟩ | ⟨_, hdot | hsteps⟩
  · rw [components, hroot] at hnames
    cases hnames _ List.mem_cons_self
  · rw [components, hdot] at hnames
    cases hnames _ List.mem_cons_self
  · exact hsteps

theorem components_under (hdirectory : AreNames directory) (h : path.IsPlain) :
    (path.under directory).components = directory.map .name ++ path.components := by
  rw [components_eq_stepsOf h]
  exact ofChars_textUnder hdirectory _

theorem under_equiv_iff (hdirectory : AreNames directory) (h : path.IsPlain)
    (hother : other.IsPlain) : path.under directory ≈ other.under directory ↔ path ≈ other := by
  rw [equiv_iff, components_under hdirectory h, components_under hdirectory hother,
    List.append_cancel_left_eq, equiv_iff]

/-- A text with a plain normal form is relative, and a dot in front of it makes no difference. -/
theorem normal_of_isPlain (h : (normal text).IsPlain) :
    text.toList.head? ≠ some '/' ∧ normal text = ofComponents (stepsOf text.toList) := by
  have hnames := h.2
  rw [normal, components_ofComponents (Component.areComponents_ofChars _)] at hnames
  have hroot := Component.root_not_mem_of_normalize hnames
  rcases Component.ofChars_cases text.toList with ⟨_, hsteps⟩ | ⟨hrelative, hdot | hsteps⟩
  · exact absurd (hsteps ▸ List.mem_cons_self) hroot
  · refine ⟨hrelative, ?_⟩
    rw [normal, hdot]
    rfl
  · exact ⟨hrelative, by rw [normal, hsteps]⟩

theorem normal_textUnder (hdirectory : AreNames directory) (h : (normal text).IsPlain) :
    normal (textUnder directory text) = (normal text).under directory := by
  obtain ⟨_, hnormal⟩ := normal_of_isPlain h
  have hsteps : AreComponents (stepsOf text.toList) :=
    ⟨fun step hmem => .inl (Component.isStep_of_mem_stepsOf hmem),
      fun hmem => Component.root_not_mem_stepsOf _ (List.mem_of_mem_tail hmem)⟩
  rw [hnormal] at h ⊢
  rw [normal, ofChars_textUnder hdirectory, ofComponents_under hdirectory hsteps h]

theorem fileName_under (hdirectory : AreNames directory) (h : path.IsPlain) :
    (path.under directory).fileName = path.fileName := by
  obtain ⟨hne, hnames⟩ := h
  have hlast : path.components.getLast? = some (path.components.getLast hne) :=
    List.getLast?_eq_some_getLast hne
  have hname := hnames _ (List.getLast_mem hne)
  rw [fileName, fileName, components_under hdirectory ⟨hne, hnames⟩,
    List.getLast?_append_of_ne_nil _ hne, hlast]
  cases hcomponent : path.components.getLast hne with
  | name text => rfl
  | root | current | parent =>
    rw [hcomponent] at hname
    cases hname

theorem directory_under (hdirectory : AreNames directory) (h : path.IsPlain) :
    (path.under directory).directory = directory.map .name ++ path.directory := by
  obtain ⟨hne, hnames⟩ := h
  have hlast : path.components.getLast? ≠ some Component.root := by
    intro hroot
    cases hnames _ (List.mem_of_getLast? hroot)
  rw [Path.directory, Path.directory, components_under hdirectory ⟨hne, hnames⟩,
    List.getLast?_append_of_ne_nil _ hne, if_neg hlast, if_neg hlast,
    List.dropLast_append_of_ne_nil hne]

/-- An import leads to the same place below a directory if it leads to a plain path. -/
theorem resolve_under (hdirectory : AreNames directory) (hpath : path.IsPlain)
    (h : (path.resolve text).IsPlain) :
    (path.under directory).resolve text = (path.resolve text).under directory := by
  have hrelative : text.toList.head? ≠ some '/' := by
    intro habsolute
    rw [resolve, if_pos habsolute] at h
    exact (normal_of_isPlain h).1 habsolute
  rw [resolve, if_neg hrelative] at h ⊢
  rw [resolve, if_neg hrelative, directory_under hdirectory hpath, List.append_assoc]
  have hsteps : AreComponents (path.directory ++ Component.ofChars text.toList) :=
    areComponents_directory_append path hrelative
  exact ofComponents_under hdirectory hsteps h

end Path

end ShaderInline
