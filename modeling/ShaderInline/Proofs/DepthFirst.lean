import Mathlib.Data.List.Basic
import Mathlib.Logic.Relation

/-!
# Depth-first search

The order in which a depth-first search enters the vertices of a graph, and the order in which it
leaves them. The search enters each vertex that it can reach once. A list in which the successors of
a vertex come before it, as the order of leaving is when there are no cycles, rules cycles out.
-/
namespace ShaderInline

variable {α : Type}

/-- `DepthFirst next seen todo pre post`: after it has entered `seen`, a search from the vertices
`todo` in turn enters `pre` and leaves `post`, in these orders. -/
inductive DepthFirst (next : α → List α) : List α → List α → List α → List α → Prop where
  | done {seen : List α} : DepthFirst next seen [] [] []
  | known {seen todo pre post : List α} {a : α} (hseen : a ∈ seen)
      (hrest : DepthFirst next seen todo pre post) : DepthFirst next seen (a :: todo) pre post
  | visit {seen todo inner innerPost rest restPost : List α} {a : α} (hnew : a ∉ seen)
      (hbelow : DepthFirst next (seen ++ [a]) (next a) inner innerPost)
      (hrest : DepthFirst next (seen ++ a :: inner) todo rest restPost) :
      DepthFirst next seen (a :: todo) (a :: inner ++ rest) (innerPost ++ a :: restPost)

/-- Whether all successors of a vertex in a list come before it. -/
def SuccessorsFirst (next : α → List α) (vertices : List α) : Prop :=
  ∀ before a following, vertices = before ++ a :: following → ∀ b ∈ next a, b ∈ before

variable {next : α → List α}

namespace DepthFirst

variable {seen todo pre post : List α}

/-- What is entered was not entered before, and is entered once. -/
theorem fresh (h : DepthFirst next seen todo pre post) : pre.Nodup ∧ ∀ a ∈ pre, a ∉ seen := by
  induction h with
  | done => exact ⟨List.nodup_nil, by simp⟩
  | known _ _ ih => exact ih
  | @visit seen todo inner innerPost rest restPost a hnew _ _ ihbelow ihrest =>
    obtain ⟨hinner, hbelow⟩ := ihbelow
    obtain ⟨hrest, hlater⟩ := ihrest
    have hout : a ∉ inner := fun hmem => hbelow a hmem (by simp)
    constructor
    · refine List.nodup_append.mpr ⟨List.nodup_cons.mpr ⟨hout, hinner⟩, hrest, ?_⟩
      rintro b hb c hc rfl
      exact hlater b hc (List.mem_append_right _ hb)
    · intro b hmem hseen
      rw [List.mem_append, List.mem_cons] at hmem
      rcases hmem with (rfl | hmem) | hmem
      · exact hnew hseen
      · exact hbelow b hmem (List.mem_append_left _ hseen)
      · exact hlater b hmem (List.mem_append_left _ hseen)

/-- What is entered is left. -/
theorem perm (h : DepthFirst next seen todo pre post) : post.Perm pre := by
  induction h with
  | done => exact List.Perm.refl _
  | known _ _ ih => exact ih
  | visit _ _ _ ihbelow ihrest => exact List.perm_middle.trans ((ihbelow.append ihrest).cons _)

/-- When a search has ended, nothing is left to enter next. -/
theorem closed (h : DepthFirst next seen todo pre post) :
    todo ⊆ seen ++ pre ∧ ∀ a ∈ pre, next a ⊆ seen ++ pre := by
  induction h with
  | done => exact ⟨by simp, by simp⟩
  | known hseen _ ih =>
    refine ⟨?_, ih.2⟩
    exact List.cons_subset.mpr ⟨List.mem_append_left _ hseen, ih.1⟩
  | @visit seen todo inner innerPost rest restPost a _ _ _ ihbelow ihrest =>
    obtain ⟨hnext, hbelow⟩ := ihbelow
    obtain ⟨htodo, hrest⟩ := ihrest
    have hlater : seen ++ a :: inner ++ rest ⊆ seen ++ (a :: inner ++ rest) := by simp
    have hinside : seen ++ [a] ++ inner ⊆ seen ++ (a :: inner ++ rest) := by
      have hprefix : seen ++ [a] ++ inner <+: seen ++ (a :: inner ++ rest) := ⟨rest, by simp⟩
      exact hprefix.subset
    constructor
    · exact List.cons_subset.mpr ⟨by simp, List.Subset.trans htodo hlater⟩
    · intro b hmem
      rw [List.mem_append, List.mem_cons] at hmem
      rcases hmem with (rfl | hmem) | hmem
      · exact List.Subset.trans hnext hinside
      · exact List.Subset.trans (hbelow b hmem) hinside
      · exact List.Subset.trans (hrest b hmem) hlater

theorem reaches (h : DepthFirst next seen todo pre post) :
    ∀ b ∈ pre, ∃ a ∈ todo, Relation.ReflTransGen (fun a b => b ∈ next a) a b := by
  induction h with
  | done => simp
  | known _ _ ih =>
    intro b hmem
    obtain ⟨a, ha, hpath⟩ := ih b hmem
    exact ⟨a, List.mem_cons_of_mem _ ha, hpath⟩
  | visit _ _ _ ihbelow ihrest =>
    intro b hmem
    rw [List.mem_append, List.mem_cons] at hmem
    rcases hmem with (rfl | hmem) | hmem
    · exact ⟨b, List.mem_cons_self, .refl⟩
    · obtain ⟨a, ha, hpath⟩ := ihbelow b hmem
      exact ⟨_, List.mem_cons_self, .head ha hpath⟩
    · obtain ⟨a, ha, hpath⟩ := ihrest b hmem
      exact ⟨a, List.mem_cons_of_mem _ ha, hpath⟩

/-- A search enters what can be reached, and nothing else. -/
theorem mem_iff {top : α} (h : DepthFirst next [] [top] pre post) (b : α) :
    b ∈ pre ↔ Relation.ReflTransGen (fun a b => b ∈ next a) top b := by
  constructor
  · intro hmem
    obtain ⟨a, ha, hpath⟩ := h.reaches b hmem
    rw [List.mem_singleton] at ha
    rwa [← ha]
  · intro hpath
    obtain ⟨htop, hclosed⟩ := h.closed
    induction hpath with
    | refl => exact htop List.mem_cons_self
    | tail _ hstep ih => exact hclosed _ ih hstep

/-- Searches one after the other are one search. -/
theorem append {todo' pre' post' : List α} (h : DepthFirst next seen todo pre post)
    (h' : DepthFirst next (seen ++ pre) todo' pre' post') :
    DepthFirst next seen (todo ++ todo') (pre ++ pre') (post ++ post') := by
  induction h with
  | done => simpa using h'
  | known hseen _ ih => exact .known hseen (ih h')
  | visit hnew hbelow _ _ ihrest =>
    have hlater := ihrest (by simpa using h')
    have hvisit := DepthFirst.visit hnew hbelow hlater
    simpa using hvisit

/-- There is one order of entering and one of leaving. -/
theorem unique {pre' post' : List α} (h : DepthFirst next seen todo pre post)
    (h' : DepthFirst next seen todo pre' post') : pre' = pre ∧ post' = post := by
  induction h generalizing pre' post' with
  | done =>
    cases h'
    exact ⟨rfl, rfl⟩
  | known hseen _ ih =>
    cases h' with
    | known _ hrest => exact ih hrest
    | visit hnew => exact absurd hseen hnew
  | visit hnew _ _ ihbelow ihrest =>
    cases h' with
    | known hseen => exact absurd hseen hnew
    | visit _ hbelow hrest =>
      obtain ⟨rfl, rfl⟩ := ihbelow hbelow
      obtain ⟨rfl, rfl⟩ := ihrest hrest
      exact ⟨rfl, rfl⟩

end DepthFirst

namespace SuccessorsFirst

variable {vertices : List α} {a : α}

theorem concat (h : SuccessorsFirst next vertices) (ha : next a ⊆ vertices) :
    SuccessorsFirst next (vertices ++ [a]) := by
  intro before b following hsplit
  rcases List.eq_nil_or_concat following with rfl | ⟨init, last, rfl⟩
  · obtain ⟨rfl, hlast⟩ := List.append_inj' hsplit rfl
    obtain rfl := List.singleton_inj.mp hlast
    exact ha
  · rw [List.concat_eq_append, ← List.cons_append, ← List.append_assoc] at hsplit
    obtain ⟨hinit, _⟩ := List.append_inj' hsplit rfl
    exact h before b init hinit

/-- What can be reached over an edge or more comes before. -/
theorem mem_of_transGen (h : SuccessorsFirst next vertices) {b : α}
    (hpath : Relation.TransGen (fun a b => b ∈ next a) a b) {before following : List α}
    (hsplit : vertices = before ++ a :: following) : b ∈ before := by
  induction hpath with
  | single hstep => exact h before a following hsplit _ hstep
  | tail _ hstep ih =>
    obtain ⟨earlier, later, rfl⟩ := List.append_of_mem ih
    have hmem := h earlier _ (later ++ a :: following) (by simp [hsplit]) _ hstep
    exact List.mem_append_left _ hmem

theorem not_transGen (h : SuccessorsFirst next vertices) (hnodup : vertices.Nodup)
    (hmem : a ∈ vertices) : ¬ Relation.TransGen (fun a b => b ∈ next a) a a := by
  intro hpath
  obtain ⟨before, following, rfl⟩ := List.append_of_mem hmem
  have hbefore := h.mem_of_transGen hpath rfl
  exact (List.nodup_append.mp hnodup).2.2 a hbefore a List.mem_cons_self rfl

end SuccessorsFirst

end ShaderInline
