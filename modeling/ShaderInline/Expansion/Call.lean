import ShaderInline.Expansion.Walk

/-!
# Calls

A call expands one path, as if it were imported by the innermost one of the open files, and after
whatever the state of the batch remembers. It leaves the open files as they were, and hands back
the state in which it ended whether or not it succeeded.
-/
namespace ShaderInline

variable {σ : Type}

/-- What a call hands back. The history is that of this call alone. -/
structure Outcome (σ ε : Type) where
  result : Except ε FlatText
  opened : OpenFiles
  run : Run σ

namespace Outcome

def state {ε : Type} (outcome : Outcome σ ε) : BatchState := outcome.run.state

/-- The outcome of a call that did not end for its depth. -/
def settled (outcome : Outcome σ Stop) (h : outcome.result ≠ .error .tooDeep) :
    Outcome σ Failure where
  result := match hresult : outcome.result with
    | .ok flat => .ok flat
    | .error (.failed failure) => .error failure
    | .error .tooDeep => absurd hresult h
  opened := outcome.opened
  run := outcome.run

end Outcome

/-- Expands a path as written, with an explicit limit on the nesting of files. -/
def Provider.call (provider : Provider σ) (directives : Directives) (limit : Nat) (text : String)
    (opened : OpenFiles) (state : BatchState) (source : σ) : Outcome σ Stop :=
  let path := Path.normal text
  let ended := expandFile provider directives limit opened path { source, state }
  ⟨ended.1.map (·.flatten path), opened.visit path, ended.2⟩

end ShaderInline
