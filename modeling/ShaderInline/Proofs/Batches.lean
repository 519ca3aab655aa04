import ShaderInline.Proofs.Success

/-!
# Batches

The calls of a batch share one state, which every call takes over from the one before it, whether
that one succeeded or not. Nothing is ever taken out of the state again, so what a call has met or
inlined is known in all later ones.
-/
namespace ShaderInline

variable {σ : Type}

/-- A call that a batch is asked for. The source may have changed since the call before it. -/
structure Request (σ : Type) where
  text : String
  limit : Nat
  source : σ

/-- The call of a request, in the state that the batch has come to. -/
def Provider.answer (provider : Provider σ) (directives : Directives) (state : BatchState)
    (request : Request σ) : Outcome σ Stop :=
  provider.call directives request.limit request.text {} state request.source

/-- The state that the calls of a batch leave behind. -/
def Provider.afterBatch (provider : Provider σ) (directives : Directives) (state : BatchState)
    (requests : List (Request σ)) : BatchState :=
  requests.foldl (fun state request => (provider.answer directives state request).state) state

/-- Whether all guards that were met and all files that were inlined in an earlier state are known
in a later one. -/
structure BatchState.Extends (later earlier : BatchState) : Prop where
  onceGuards : ∀ guard, earlier.onceGuards.contains guard → later.onceGuards.contains guard
  namedGuards : ∀ name, earlier.namedGuards.contains name → later.namedGuards.contains name
  inlined : ∀ path, earlier.inlined.contains path → later.inlined.contains path

theorem BatchState.Extends.refl (state : BatchState) : state.Extends state :=
  ⟨fun _ h => h, fun _ h => h, fun _ h => h⟩

theorem BatchState.Extends.trans {latest later earlier : BatchState} (h : latest.Extends later)
    (hearlier : later.Extends earlier) : latest.Extends earlier where
  onceGuards guard hguard := h.onceGuards guard (hearlier.onceGuards guard hguard)
  namedGuards name hname := h.namedGuards name (hearlier.namedGuards name hname)
  inlined path hpath := h.inlined path (hearlier.inlined path hpath)

namespace Run

variable {provider : Provider σ} {run after : Run σ}

theorem Step.extends (h : Step provider run after) : after.state.Extends run.state := by
  cases h with
  | asked | lookedUp | skippedFile | skippedGuard => exact .refl _
  | remarked => exact ⟨fun _ h => h, fun _ h => h, fun _ h => h⟩
  | guardedOnce =>
    refine ⟨fun guard hguard => ?_, fun _ h => h, fun _ h => h⟩
    simp [Run.guardedOnce, hguard]
  | defined =>
    refine ⟨fun _ h => h, fun name hname => ?_, fun _ h => h⟩
    simp [Run.defined, hname]
  | completed =>
    refine ⟨fun _ h => h, fun _ h => h, fun path hpath => ?_⟩
    simp [Run.completed, InlinedFiles.contains_add, hpath]

/-- Nothing is forgotten in the course of a run. -/
theorem Steps.extends (h : run.Steps provider after) : after.state.Extends run.state := by
  induction h with
  | refl => exact .refl _
  | tail _ hstep ih => exact hstep.extends.trans ih

end Run

section Batch

variable (provider : Provider σ) (directives : Directives) (state : BatchState)

theorem call_extends (limit : Nat) (text : String) (opened : OpenFiles) (source : σ) :
    (provider.call directives limit text opened state source).state.Extends state := by
  obtain ⟨result, hexpands, _⟩ := call_expands provider directives limit text opened state source
  exact hexpands.steps.extends

/-- Nothing is forgotten in the course of a batch. -/
theorem afterBatch_extends (requests : List (Request σ)) :
    (provider.afterBatch directives state requests).Extends state := by
  induction requests generalizing state with
  | nil => exact .refl _
  | cons request requests ih =>
    exact (ih _).trans (call_extends provider directives state _ _ _ _)

end Batch

end ShaderInline
