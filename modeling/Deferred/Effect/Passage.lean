import Deferred.Effect.Chain

/-!
# Passage — what a queue of links makes of an effect

* `passError` — an error passes through every error transformation that is left;
* `Effect.pass` — an effect passes through a queue until the queue is empty or the effect waits
  on an operation of its own, which then inherits the links that are left.
-/

namespace Deferred

variable {S : Signature}

/-! ## Errors -/

/-- Pass an error through the links that transform errors, in order. -/
def passErrorAlong (error : S.Error) : List (Link S) → Action S S.Error
  | [] => return error
  | .onSuccess _ :: rest => passErrorAlong error rest
  | .onError f :: rest => do passErrorAlong (← f error) rest

/-- Pass an error through every error transformation of a queue. -/
def passError (error : S.Error) (queue : Deque (Link S)) : Action S S.Error :=
  passErrorAlong error queue.toList

@[simp] theorem passErrorAlong_nil (error : S.Error) : passErrorAlong error [] = pure error := rfl

@[simp] theorem passErrorAlong_onSuccess (error : S.Error) (step : Step S)
    (rest : List (Link S)) :
    passErrorAlong error (.onSuccess step :: rest) = passErrorAlong error rest := rfl

@[simp] theorem passErrorAlong_onError (error : S.Error) (f : S.Error → Action S S.Error)
    (rest : List (Link S)) :
    passErrorAlong error (.onError f :: rest) = f error >>= fun e => passErrorAlong e rest := rfl

/-! ## Effects -/

namespace Effect

/-- Pass an effect through a queue of links. -/
def pass (M : Meaning S) (e : Effect S) (queue : Deque (Link S)) : Action S (Effect S) :=
  match e with
  | .failure error => return .failure (← passError error queue)
  | .command c => return .command (c.inherit queue)
  | .success value =>
      match _h : queue.popFront? with
      | none => return .success value
      | some (.onSuccess step, rest) => do (← step.run M value).pass M rest
      | some (.onError _, rest) => (Effect.success value).pass M rest
termination_by queue.size
decreasing_by all_goals exact Deque.size_lt_of_popFront? _h

theorem pass_failure (M : Meaning S) (error : S.Error) (queue : Deque (Link S)) :
    (Effect.failure error).pass M queue = (do return .failure (← passError error queue)) := by
  rw [pass]

theorem pass_command (M : Meaning S) (c : Command S) (queue : Deque (Link S)) :
    (Effect.command c).pass M queue = pure (.command (c.inherit queue)) := by
  rw [pass]

theorem pass_success_nil (M : Meaning S) (value : S.Value) :
    (Effect.success value).pass M (.ofList []) = pure (.success value) := by
  rw [pass]
  split <;> simp_all

theorem pass_success_onSuccess (M : Meaning S) (value : S.Value) (step : Step S)
    (rest : List (Link S)) :
    (Effect.success value).pass M (.ofList (.onSuccess step :: rest)) =
      step.run M value >>= fun e => e.pass M (.ofList rest) := by
  rw [pass]
  split <;> simp_all

theorem pass_success_onError (M : Meaning S) (value : S.Value) (f : S.Error → Action S S.Error)
    (rest : List (Link S)) :
    (Effect.success value).pass M (.ofList (.onError f :: rest)) =
      (Effect.success value).pass M (.ofList rest) := by
  rw [pass]
  split <;> simp_all

end Effect

end Deferred
