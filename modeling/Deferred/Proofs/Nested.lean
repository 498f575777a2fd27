import Deferred.Effect.Resume
import Deferred.Interpreter

/-!
# Nested — the reference form of effects, without a queue

In the reference form a command is a label, an operation and one continuation.  Chaining wraps
the continuation once more, and transforming errors wraps the operation as well.  It says in the
shortest way what chaining means; the library keeps the wrappers in a queue instead.

* `Nested.Continuation`, `Nested.Command`, `Nested` — effects in the reference form;
* `Nested.andThen`, `Nested.mapErr`, `Nested.map`, `Nested.ensure` — the combinators;
* `Nested.resume`, `Nested.advance`, `Nested.runFor` — feeding a result by hand, one operation,
  and whole runs;
* `Build`, `Bodies` — how effects are built, and what is built behind the names of a signature,
  said once for both forms.
-/

namespace Deferred

variable {S : Signature}

/-! ## Effects -/

/-- A continuation in the reference form.  It is a closure, given by what it runs and what it
captures: either the continuation that a command was made with, or a continuation whose effect is
chained with a step, or one whose error is transformed. -/
inductive Nested.Continuation (S : Signature) (r : S.ResultType) where
  | made (k : Deferred.Continuation S r)
  | andThen (k : Nested.Continuation S r) (step : Step S)
  | mapErr (k : Nested.Continuation S r) (f : S.Error → Action S S.Error)

/-- A command in the reference form. -/
structure Nested.Command (S : Signature) where
  label : Label
  result : S.ResultType
  operation : Action S (Except S.Error (S.Result result))
  continuation : Nested.Continuation S result

/-- An effect in the reference form. -/
inductive Nested (S : Signature) where
  | success (value : S.Value)
  | failure (error : S.Error)
  | command (c : Nested.Command S)

namespace Nested

/-- The effects in the reference form that names stand for. -/
@[ext] structure Meaning (S : Signature) where
  call : S.Fn → S.Value → Action S (Nested S)
  resume : (r : S.ResultType) → S.Cont r → S.Result r → Action S (Nested S)
  tryResume : (r : S.ResultType) → S.TryCont r → S.Result r →
    Action S (Except S.Error (Nested S))

/-! ## Making and chaining -/

/-- An operation, and a continuation of its result that cannot fault. -/
def deferred (label : Label) {r : S.ResultType}
    (operation : Action S (Except S.Error (S.Result r))) (k : S.Cont r) : Nested S :=
  .command ⟨label, r, operation, .made (.total k)⟩

/-- An operation, and a continuation of its result that can fault. -/
def tryDeferred (label : Label) {r : S.ResultType}
    (operation : Action S (Except S.Error (S.Result r))) (k : S.TryCont r) : Nested S :=
  .command ⟨label, r, operation, .made (.fallible k)⟩

/-- An operation whose error is transformed. -/
def mapOperation {α : Type} (operation : Action S (Except S.Error α))
    (f : S.Error → Action S S.Error) : Action S (Except S.Error α) := do
  match ← operation with
  | .ok result => return .ok result
  | .error error => return .error (← f error)

/-- Wrap the continuation of a command, so that its effect is chained with a step. -/
def Command.andThen (c : Command S) (step : Step S) : Command S :=
  { c with continuation := c.continuation.andThen step }

/-- Wrap the operation and the continuation of a command, so that the errors of both are
transformed. -/
def Command.mapErr (c : Command S) (f : S.Error → Action S S.Error) : Command S :=
  { c with operation := mapOperation c.operation f, continuation := c.continuation.mapErr f }

/-- Transform the error of an effect, wherever it comes from. -/
def mapErr (n : Nested S) (f : S.Error → Action S S.Error) : Action S (Nested S) :=
  match n with
  | .success value => return .success value
  | .failure error => return .failure (← f error)
  | .command c => return .command (c.mapErr f)

mutual

/-- Apply a step to a value. -/
def runStep (N : Meaning S) : Step S → S.Value → Action S (Nested S)
  | .call f, value => N.call f value
  | .map f, value => return .success (← f value)
  | .ensure holds error, value => do
      if ← holds value then return .success value else return .failure (← error)
  | .andThen first next, value => do
      match ← runStep N first value with
      | .success value => runStep N next value
      | .failure error => return .failure error
      | .command c => return .command (c.andThen next)
  | .mapErr step f, value => do (← runStep N step value).mapErr f
  | .after before step, value => do
      before
      runStep N step value
  | .pipeline steps, value => runSteps N steps (.success value)

/-- Chain an effect with steps in order. -/
def runSteps (N : Meaning S) : List (Step S) → Nested S → Action S (Nested S)
  | [], n => return n
  | step :: rest, .success value => do runSteps N rest (← runStep N step value)
  | _ :: rest, .failure error => runSteps N rest (.failure error)
  | step :: rest, .command c => runSteps N rest (.command (c.andThen step))

end

/-- Run a step on the success value of an effect. -/
def andThen (N : Meaning S) (n : Nested S) (step : Step S) : Action S (Nested S) :=
  match n with
  | .success value => runStep N step value
  | .failure error => return .failure error
  | .command c => return .command (c.andThen step)

/-- Transform the success value of an effect. -/
def map (N : Meaning S) (n : Nested S) (f : S.Value → Action S S.Value) : Action S (Nested S) :=
  n.andThen N (.map f)

/-- Fail unless the success value of an effect satisfies a predicate. -/
def ensure (N : Meaning S) (n : Nested S) (holds : S.Value → Action S Bool)
    (error : Action S S.Error) : Action S (Nested S) :=
  n.andThen N (.ensure holds error)

/-! ## Looking at an effect -/

/-- The label of a pending operation. -/
def label? : Nested S → Option Label
  | .command c => some c.label
  | _ => none

/-- The result of an effect that is finished or failed. -/
def outcome? : Nested S → Option (Except S.Error S.Value)
  | .success value => some (.ok value)
  | .failure error => some (.error error)
  | .command _ => none

/-! ## Moving on -/

/-- Call a continuation with the result of its operation. -/
def Continuation.apply (N : Meaning S) {r : S.ResultType} :
    Continuation S r → S.Result r → Action S (Except S.Error (Nested S))
  | .made (.total k), result => return .ok (← N.resume r k result)
  | .made (.fallible k), result => N.tryResume r k result
  | .andThen k step, result => do
      match ← k.apply N result with
      | .ok n => return .ok (← n.andThen N step)
      | .error fault => return .error fault
  | .mapErr k f, result => do
      match ← k.apply N result with
      | .ok n => return .ok (← n.mapErr f)
      | .error fault => return .error (← f fault)

/-- Feed a result to an effect that waits on an operation. -/
def resume (N : Meaning S) (n : Nested S) (r : S.ResultType) (result : S.Result r) :
    Action S (Except ResumeError (Nested S)) :=
  match n with
  | .command c =>
      if h : r = c.result then do
        match ← c.continuation.apply N (h ▸ result) with
        | .ok next => return .ok next
        | .error fault => return .ok (.failure fault)
      else
        return .error (.typeMismatch c.label (S.typeName c.result) (S.typeName r))
  | _ => return .error .notSuspended

/-- Where one command leads to. -/
inductive Advance (S : Signature) where
  | next (n : Nested S)
  | fault (phase : Phase) (error : S.Error)

/-- Invoke the operation of a command and call its continuation. -/
def advance (N : Meaning S) (c : Command S) : Action S (Advance S) := do
  match ← c.operation with
  | .error error => return .fault .operation error
  | .ok result =>
      match ← c.continuation.apply N result with
      | .error error => return .fault .continuation error
      | .ok next => return .next next

/-- Drive an effect to its outcome, invoking at most the given number of operations. -/
def runFor (N : Meaning S) (observe : Event → Action S Unit) (span : Option String) :
    Nat → Nested S → Option Trace → Action S (Option (Finished S))
  | _, .success value, trace => return some ⟨.ok value, trace⟩
  | _, .failure error, trace => return some ⟨.error error, trace⟩
  | 0, .command _, _ => return none
  | limit + 1, .command c, trace => do
      observe ⟨span, .running c.label⟩
      match ← advance N c with
      | .next n => runFor N observe span limit n (trace.map (·.push c.label))
      | .fault phase error =>
          observe ⟨span, .faulted c.label phase⟩
          return some ⟨.error error,
            trace.map fun t => (t.push c.label).faultedAt ⟨c.label, phase⟩⟩

/-- Drive an effect to its outcome and keep a record. -/
def runRecorded (N : Meaning S) (observe : Event → Action S Unit) (limit : Nat) (n : Nested S) :
    Action S (Option (Except S.Error S.Value × Trace)) :=
  return (← runFor N observe none limit n (some .empty)).map fun f =>
    (f.result, f.trace.getD .empty)

end Nested

/-! ## Building effects -/

/-- How an effect is built, with the constructors and combinators that both forms have. -/
inductive Build (S : Signature) where
  | success (value : S.Value)
  | failure (error : S.Error)
  | deferred (label : Label) (r : S.ResultType)
      (operation : Action S (Except S.Error (S.Result r))) (k : S.Cont r)
  | tryDeferred (label : Label) (r : S.ResultType)
      (operation : Action S (Except S.Error (S.Result r))) (k : S.TryCont r)
  | andThen (b : Build S) (step : Step S)
  | map (b : Build S) (f : S.Value → Action S S.Value)
  | ensure (b : Build S) (holds : S.Value → Action S Bool) (error : Action S S.Error)
  | mapErr (b : Build S) (f : S.Error → Action S S.Error)

namespace Build

/-- The effect that is built. -/
def effect (M : Meaning S) : Build S → Action S (Effect S)
  | .success value => return .success value
  | .failure error => return .failure error
  | .deferred label _ operation k => return .deferred label operation k
  | .tryDeferred label _ operation k => return .tryDeferred label operation k
  | .andThen b step => do (← b.effect M).andThen M step
  | .map b f => do (← b.effect M).map M f
  | .ensure b holds error => do (← b.effect M).ensure M holds error
  | .mapErr b f => do (← b.effect M).mapErr f

/-- The effect that is built in the reference form. -/
def reference (N : Nested.Meaning S) : Build S → Action S (Nested S)
  | .success value => return .success value
  | .failure error => return .failure error
  | .deferred label _ operation k => return .deferred label operation k
  | .tryDeferred label _ operation k => return .tryDeferred label operation k
  | .andThen b step => do (← b.reference N).andThen N step
  | .map b f => do (← b.reference N).map N f
  | .ensure b holds error => do (← b.reference N).ensure N holds error
  | .mapErr b f => do (← b.reference N).mapErr f

end Build

/-- The code behind the names of a signature: what each of them builds. -/
structure Bodies (S : Signature) where
  call : S.Fn → S.Value → Action S (Build S)
  resume : (r : S.ResultType) → S.Cont r → S.Result r → Action S (Build S)
  tryResume : (r : S.ResultType) → S.TryCont r → S.Result r →
    Action S (Except S.Error (Build S))

namespace Bodies

/-- The effects behind the names when calls are nested up to a given depth; a call that is nested
deeper is answered by `deeper`.  Operations do not count: what comes after one starts again with
the full depth. -/
def meaning (B : Bodies S) (deeper : Meaning S) : Nat → Meaning S
  | 0 => deeper
  | depth + 1 =>
      { call := fun f value => do (← B.call f value).effect (meaning B deeper depth)
        resume := fun {r} k result => do
          (← B.resume r k result).effect (meaning B deeper depth)
        tryResume := fun {r} k result => do
          match ← B.tryResume r k result with
          | .ok b => return .ok (← b.effect (meaning B deeper depth))
          | .error fault => return .error fault }

/-- The same in the reference form. -/
def reference (B : Bodies S) (deeper : Nested.Meaning S) : Nat → Nested.Meaning S
  | 0 => deeper
  | depth + 1 =>
      { call := fun f value => do (← B.call f value).reference (reference B deeper depth)
        resume := fun r k result => do
          (← B.resume r k result).reference (reference B deeper depth)
        tryResume := fun r k result => do
          match ← B.tryResume r k result with
          | .ok b => return .ok (← b.reference (reference B deeper depth))
          | .error fault => return .error fault }

end Bodies

end Deferred
