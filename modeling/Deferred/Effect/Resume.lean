import Deferred.Effect.Passage

/-!
# Resume — feed a command a result by hand

The operation is not invoked, which is how a test walks through a flow step by step.

* `ResumeError` — why a result is refused;
* `Command.resume`, `Effect.resume` — the effect that comes after a result.
-/

namespace Deferred

variable {S : Signature}

/-- Why a result that was supplied by hand is refused. -/
inductive ResumeError where
  | typeMismatch (label : Label) (expected found : String)
  | notSuspended
  deriving DecidableEq

namespace ResumeError

/-- The sentence that reports the refusal. -/
def message : ResumeError → String
  | .typeMismatch label expected found =>
      "command `" ++ label.text ++ "` expects a result of type " ++ expected ++ ", got " ++ found
  | .notSuspended => "effect is a terminal outcome, not a deferred command"

/-- The rendered form of the refusal. -/
def shown : ResumeError → Shown
  | .typeMismatch label expected found =>
      .record "TypeMismatch"
        [("label", label.shown), ("expected", .atom (Text.quoted expected)),
          ("found", .atom (Text.quoted found))]
  | .notSuspended => .atom "NotSuspended"

end ResumeError

/-- Feed a result to a command as if its operation had produced it.  A fault of the continuation
becomes a failure. -/
def Command.resume (M : Meaning S) (c : Command S) (r : S.ResultType) (result : S.Result r) :
    Action S (Except ResumeError (Effect S)) :=
  if h : r = c.request.result then do
    match ← c.request.continuation.apply M (h ▸ result) with
    | .ok next => return .ok (← next.pass M c.queue)
    | .error fault => return .ok (.failure (← passError fault c.queue))
  else
    return .error (.typeMismatch c.label (S.typeName c.request.result) (S.typeName r))

/-- Feed a result to an effect that waits on an operation. -/
def Effect.resume (M : Meaning S) (e : Effect S) (r : S.ResultType) (result : S.Result r) :
    Action S (Except ResumeError (Effect S)) :=
  match e with
  | .command c => c.resume M r result
  | _ => return .error .notSuspended

end Deferred
