import Deferred.Pipeline
import Deferred.Typed.Effect

/-!
# Pipeline — typed steps, each taking what the one before it gives

* `Typed.Pipeline S a v e` — a pipeline from values of `a` to effects of `v` and `e`;
* `empty`, `push`, `run` — as for pipelines of boxed values, with the types that fit.
-/

namespace Deferred.Typed

variable {S : Signature}

/-- Steps from values of type `a` to effects of `v` and `e`. -/
structure Pipeline (S : Signature) (a v e : S.types.Ty) where
  untyped : Deferred.Pipeline S.untyped

namespace Pipeline

variable {a v w e : S.types.Ty}

/-- The pipeline without steps: running it gives the start value. -/
def empty : Pipeline S a a e := ⟨.empty⟩

/-- Append a step. -/
def push (p : Pipeline S a v e) (step : Step S v w e) : Pipeline S a w e :=
  ⟨p.untyped.push step.untyped⟩

/-- The effect for a start value. -/
def run (M : Meaning S) (p : Pipeline S a v e) (start : S.types.El a) : Act S (Effect S v e) := do
  Effect.reveal (← p.untyped.run M.untyped (Boxed.mk a start))

/-- How many steps there are. -/
def size (p : Pipeline S a v e) : Nat := p.untyped.size

end Pipeline

end Deferred.Typed
