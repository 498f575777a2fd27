import Deferred.Effect.Chain

/-!
# Pipeline — steps that are put together once and run on many values

Running a pipeline only builds an effect: a failure ends it, and a command takes the steps that
are left into its queue.

* `Pipeline` — steps in order;
* `Pipeline.run` — the effect for a start value;
* `Pipeline.toStep` — a pipeline as one step of another chain.
-/

namespace Deferred

variable {S : Signature}

/-- Steps in order. -/
structure Pipeline (S : Signature) where
  steps : Array (Step S) := #[]

namespace Pipeline

/-- The pipeline without steps: running it gives the start value. -/
def empty : Pipeline S := {}

/-- Append a step. -/
def push (p : Pipeline S) (step : Step S) : Pipeline S :=
  { p with steps := p.steps.push step }

/-- The pipeline of a list of steps. -/
def ofList (steps : List (Step S)) : Pipeline S :=
  { steps := steps.toArray }

/-- The steps from first to last. -/
def toList (p : Pipeline S) : List (Step S) := p.steps.toList

/-- The effect for a start value. -/
def run (M : Meaning S) (p : Pipeline S) (start : S.Value) : Action S (Effect S) :=
  Step.runAll M p.toList (.success start)

/-- The pipeline as one step. -/
def toStep (p : Pipeline S) : Step S := .pipeline p.toList

/-- How many steps there are. -/
def size (p : Pipeline S) : Nat := p.steps.size

def isEmpty (p : Pipeline S) : Bool := p.steps.isEmpty

/-- The rendered form of a pipeline: steps are functions and only counted. -/
def shown (p : Pipeline S) : Shown :=
  .record "Pipeline" [("steps", .atom (toString p.size))]

@[simp] theorem toList_empty : (empty : Pipeline S).toList = [] := rfl

@[simp] theorem toList_ofList (steps : List (Step S)) : (ofList steps).toList = steps := by
  simp [toList, ofList]

@[simp] theorem toList_push (p : Pipeline S) (step : Step S) :
    (p.push step).toList = p.toList ++ [step] := by
  simp [toList, push]

/-- A pipeline that steps are appended to one by one. -/
theorem toList_foldl_push (p : Pipeline S) (steps : List (Step S)) :
    (steps.foldl push p).toList = p.toList ++ steps := by
  induction steps generalizing p with
  | nil =>
    simp
  | cons step rest ih =>
    have hrest := ih (p.push step)
    simpa using hrest

theorem run_toStep (M : Meaning S) (p : Pipeline S) (start : S.Value) :
    p.toStep.run M start = p.run M start := by
  rw [toStep, Step.run, run]

end Pipeline

end Deferred
