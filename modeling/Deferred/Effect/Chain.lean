import Deferred.Effect.Basic

/-!
# Chain — put a step behind an effect

On an outcome a combinator acts at once.  On a command it only queues a link: nothing is called
until the operation's result is there.

* `Step.run` — apply a step to a value;
* `Effect.andThen`, `Effect.map`, `Effect.ensure`, `Effect.mapErr` — the combinators.
-/

namespace Deferred

variable {S : Signature}

/-- Transform the error of an effect, wherever it comes from. -/
def Effect.mapErr (e : Effect S) (f : S.Error → Action S S.Error) : Action S (Effect S) :=
  match e with
  | .success value => return .success value
  | .failure error => return .failure (← f error)
  | .command c => return .command (c.push (.onError f))

mutual

/-- Apply a step to a value. -/
def Step.run (M : Meaning S) : Step S → S.Value → Action S (Effect S)
  | .call f, value => M.call f value
  | .map f, value => return .success (← f value)
  | .ensure holds error, value => do
      if ← holds value then return .success value else return .failure (← error)
  | .andThen first next, value => do
      match ← first.run M value with
      | .success value => next.run M value
      | .failure error => return .failure error
      | .command c => return .command (c.push (.onSuccess next))
  | .mapErr step f, value => do (← step.run M value).mapErr f
  | .after before step, value => do
      before
      step.run M value
  | .pipeline steps, value => Step.runAll M steps (.success value)

/-- Fold steps over an effect.  A failure ends the fold, a command takes the steps that are left
into its queue. -/
def Step.runAll (M : Meaning S) : List (Step S) → Effect S → Action S (Effect S)
  | [], current => return current
  | step :: rest, .success value => do Step.runAll M rest (← step.run M value)
  | _ :: _, .failure error => return .failure error
  | step :: rest, .command c => Step.runAll M rest (.command (c.push (.onSuccess step)))

end

namespace Effect

/-- Run a step on the success value of an effect.  A failure is returned as it is. -/
def andThen (M : Meaning S) (e : Effect S) (step : Step S) : Action S (Effect S) :=
  match e with
  | .success value => step.run M value
  | .failure error => return .failure error
  | .command c => return .command (c.push (.onSuccess step))

/-- Transform the success value of an effect. -/
def map (M : Meaning S) (e : Effect S) (f : S.Value → Action S S.Value) : Action S (Effect S) :=
  e.andThen M (.map f)

/-- Fail unless the success value of an effect satisfies a predicate. -/
def ensure (M : Meaning S) (e : Effect S) (holds : S.Value → Action S Bool)
    (error : Action S S.Error) : Action S (Effect S) :=
  e.andThen M (.ensure holds error)

/-- Apply a queued link to an effect. -/
def link (M : Meaning S) (e : Effect S) : Link S → Action S (Effect S)
  | .onSuccess step => e.andThen M step
  | .onError f => e.mapErr f

end Effect

namespace Step

theorem run_andThen (M : Meaning S) (first next : Step S) (value : S.Value) :
    (Step.andThen first next).run M value = first.run M value >>= fun e => e.andThen M next := by
  simp only [Step.run, Effect.andThen]

theorem run_mapErr (M : Meaning S) (step : Step S) (f : S.Error → Action S S.Error)
    (value : S.Value) :
    (Step.mapErr step f).run M value = step.run M value >>= fun e => e.mapErr f := by
  rw [Step.run]

end Step

end Deferred
