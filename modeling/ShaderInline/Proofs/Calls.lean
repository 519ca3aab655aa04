import ShaderInline.Expansion.Call
import ShaderInline.Expansion.Limit
import ShaderInline.Proofs.Evaluation

/-!
# Calls and their limits

A call is the expansion of one file from an empty history. A limit that a call does not meet makes
no difference to it, and finitely many readable files give such a limit.
-/
namespace ShaderInline

variable {σ : Type}

/-- The outcome among those that may have ended for their depth. -/
def Outcome.toLimited (outcome : Outcome σ Failure) : Outcome σ Stop :=
  ⟨outcome.result.mapError .failed, outcome.opened, outcome.run⟩

theorem Outcome.toLimited_settled (outcome : Outcome σ Stop)
    (h : outcome.result ≠ .error .tooDeep) : (outcome.settled h).toLimited = outcome := by
  rcases outcome with ⟨stop | flat, opened, run⟩
  · cases stop with
    | failed failure => rfl
    | tooDeep => exact absurd rfl h
  · rfl

variable {provider : Provider σ} {directives : Directives} {limit : Nat} {text : String}
  {opened : OpenFiles} {state : BatchState} {source : σ}

/-- A call follows the rules from an empty history. -/
theorem call_expands (provider : Provider σ) (directives : Directives) (limit : Nat)
    (text : String) (opened : OpenFiles) (state : BatchState) (source : σ) :
    ∃ result, Expands provider directives limit opened (.file (Path.normal text)) { source, state }
        result (provider.call directives limit text opened state source).run ∧
      (provider.call directives limit text opened state source).result =
        result.map (·.flatten (Path.normal text)) :=
  ⟨_, expands_expandFile _ _ _ _ _ _, rfl⟩

/-- A call comes to what the rules derive. -/
theorem call_of_expands {tree : ExpansionTree} {after : Run σ}
    (h : Expands provider directives limit opened (.file (Path.normal text)) { source, state }
      (.ok tree) after) :
    (provider.call directives limit text opened state source).result =
        .ok (tree.flatten (Path.normal text)) ∧
      (provider.call directives limit text opened state source).run = after := by
  have hended : expandFile provider directives limit opened (Path.normal text) { source, state } =
      (.ok tree, after) := h.steps_eq
  simp only [Provider.call, hended]
  exact ⟨rfl, trivial⟩

/-- The history of a call holds the answers of the provider, from the source of the call on. -/
theorem call_answeredBy (provider : Provider σ) (directives : Directives) (limit : Nat)
    (text : String) (opened : OpenFiles) (state : BatchState) (source : σ) :
    (provider.call directives limit text opened state source).run.AnsweredBy provider source := by
  obtain ⟨result, hexpands, _⟩ :=
    call_expands provider directives limit text opened state source
  exact hexpands.steps.answeredBy .nil

theorem call_of_le {larger : Nat} (hle : limit ≤ larger)
    (hshallow : (provider.call directives limit text opened state source).result ≠
      .error .tooDeep) :
    provider.call directives larger text opened state source =
      provider.call directives limit text opened state source := by
  have hexpands := expands_expandFile provider directives limit opened (Path.normal text)
    { source, state }
  have hresult : (expandFile provider directives limit opened (Path.normal text)
      { source, state }).1 ≠ .error .tooDeep := by
    intro hdeep
    apply hshallow
    exact map_eq_error_iff.mpr hdeep
  have hlarger := (hexpands.limit_mono hle hresult).steps_eq
  have hsame : expandFile provider directives larger opened (Path.normal text) { source, state } =
      expandFile provider directives limit opened (Path.normal text) { source, state } := hlarger
  simp only [Provider.call, hsame]

/-- No call is stopped for its depth if its limit exceeds the number of readable files. -/
theorem call_result_ne_tooDeep {readable : List Path} (hreads : provider.ReadsAmong readable)
    (hlimit : readable.length < limit) :
    (provider.call directives limit text opened state source).result ≠ .error .tooDeep := by
  have hunopened : unopened readable opened < limit :=
    Nat.lt_of_le_of_lt (List.length_filter_le _ _) hlimit
  have hshallow := staysShallow_expandFile hreads directives limit opened (Path.normal text)
    hunopened { source, state }
  intro hdeep
  exact hshallow (map_eq_error_iff.mp hdeep)

/-- With finitely many readable files a call has one outcome, whatever limit above their number it
is given. -/
theorem exists_settled_call {readable : List Path} (hreads : provider.ReadsAmong readable)
    (directives : Directives) (text : String) (opened : OpenFiles) (state : BatchState)
    (source : σ) :
    ∃ settled : Outcome σ Failure, ∀ limit, readable.length < limit →
      provider.call directives limit text opened state source = settled.toLimited := by
  have hshallow : (provider.call directives (readable.length + 1) text opened state source).result ≠
      .error .tooDeep := call_result_ne_tooDeep hreads (Nat.lt_succ_self _)
  refine ⟨Outcome.settled _ hshallow, fun limit hlimit => ?_⟩
  rw [call_of_le hlimit hshallow]
  exact (Outcome.toLimited_settled _ hshallow).symm

end ShaderInline
