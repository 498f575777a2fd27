import Deferred.Deque
import Deferred.Label

/-!
# Effect — a description of work: finished, failed, or waiting on an operation

Business rules do not act; they return an `Effect` that says what should happen.  An effect is
plain data.  What a rule does with a value is given by name (`Signature.Fn`), and a `Meaning`
says which effect each name produces, so flows that never end, such as polling, are effects like
any other.  Functions that do not produce effects are ordinary functions in `Action`.

* `Signature` — the types and names that a family of effects is built over;
* `Step` — a function from a success value to a further effect;
* `Link` — one entry of the queue behind a pending operation;
* `Request` — an operation and the continuation of its result;
* `Command` — a labelled request and that queue;
* `Effect` — success, failure, or a command;
* `Meaning` — the effects that names stand for.
-/

namespace Deferred

/-- What a family of effects is built over.  `World` is the state that operations and steps act
on; `Fn`, `Cont` and `TryCont` are names of functions that produce effects: of steps, and of
continuations that cannot or can fault. -/
structure Signature where
  World : Type
  Value : Type
  Error : Type
  ResultType : Type
  [resultTypeEq : DecidableEq ResultType]
  Result : ResultType → Type
  typeName : ResultType → String
  Fn : Type
  Cont : ResultType → Type
  TryCont : ResultType → Type

instance (S : Signature) : DecidableEq S.ResultType := S.resultTypeEq

/-- A computation on the world of a signature. -/
abbrev Action (S : Signature) := StateM S.World

variable {S : Signature}

/-! ## Steps and links -/

/-- A function from a success value to an effect.

* `call` — the function of a name;
* `map` — transform the value;
* `ensure` — fail with an error unless the value satisfies a predicate;
* `andThen` — one step, and the next on its success;
* `mapErr` — a step whose error is transformed;
* `after` — a step with something done before it on every use;
* `pipeline` — a list of steps in order. -/
inductive Step (S : Signature) where
  | call (f : S.Fn)
  | map (f : S.Value → Action S S.Value)
  | ensure (holds : S.Value → Action S Bool) (error : Action S S.Error)
  | andThen (first next : Step S)
  | mapErr (step : Step S) (f : S.Error → Action S S.Error)
  | after (before : Action S Unit) (step : Step S)
  | pipeline (steps : List (Step S))

/-- One entry of the queue behind a pending operation: `onSuccess` runs on a success and is
skipped by an error, `onError` runs on an error and is skipped by a success. -/
inductive Link (S : Signature) where
  | onSuccess (step : Step S)
  | onError (f : S.Error → Action S S.Error)

/-! ## Commands -/

/-- What happens with the result of an operation: a `fallible` continuation can fault, a
`total` one always produces an effect. -/
inductive Continuation (S : Signature) (r : S.ResultType) where
  | total (k : S.Cont r)
  | fallible (k : S.TryCont r)

/-- An operation that has not run yet, and the continuation of its result. -/
structure Request (S : Signature) where
  result : S.ResultType
  operation : Action S (Except S.Error (S.Result result))
  continuation : Continuation S result

/-- A pending operation and the links queued behind it.  Links are kept beside the head and not
wrapped around it, so a chain of any length is built and worked off without nesting. -/
structure Command (S : Signature) where
  label : Label
  request : Request S
  queue : Deque (Link S)

namespace Command

/-- Queue a link behind all others. -/
def push (c : Command S) (link : Link S) : Command S :=
  { c with queue := c.queue.pushBack link }

/-- Queue the links of `rest` behind the command's own. -/
def inherit (c : Command S) (rest : Deque (Link S)) : Command S :=
  { c with queue := c.queue.join rest }

@[simp] theorem label_push (c : Command S) (link : Link S) : (c.push link).label = c.label := rfl

@[simp] theorem request_push (c : Command S) (link : Link S) :
    (c.push link).request = c.request := rfl

@[simp] theorem toList_queue_push (c : Command S) (link : Link S) :
    (c.push link).queue.toList = c.queue.toList ++ [link] := by
  simp [push]

@[simp] theorem label_inherit (c : Command S) (rest : Deque (Link S)) :
    (c.inherit rest).label = c.label := rfl

@[simp] theorem request_inherit (c : Command S) (rest : Deque (Link S)) :
    (c.inherit rest).request = c.request := rfl

@[simp] theorem toList_queue_inherit (c : Command S) (rest : Deque (Link S)) :
    (c.inherit rest).queue.toList = c.queue.toList ++ rest.toList := by
  simp [inherit]

end Command

/-! ## Effects -/

/-- A description of work. -/
inductive Effect (S : Signature) where
  | success (value : S.Value)
  | failure (error : S.Error)
  | command (c : Command S)

namespace Effect

/-- An operation, and a continuation of its result that cannot fault. -/
def deferred (label : Label) {r : S.ResultType}
    (operation : Action S (Except S.Error (S.Result r))) (k : S.Cont r) : Effect S :=
  .command { label, request := ⟨r, operation, .total k⟩, queue := .empty }

/-- An operation, and a continuation of its result that can fault. -/
def tryDeferred (label : Label) {r : S.ResultType}
    (operation : Action S (Except S.Error (S.Result r))) (k : S.TryCont r) : Effect S :=
  .command { label, request := ⟨r, operation, .fallible k⟩, queue := .empty }

/-- The outcome that a result stands for. -/
def ofExcept : Except S.Error S.Value → Effect S
  | .ok value => .success value
  | .error error => .failure error

/-- The outcome that an optional value stands for.  The error is only computed when there is no
value. -/
def ofOption (value : Option S.Value) (error : Action S S.Error) : Action S (Effect S) :=
  match value with
  | some value => return .success value
  | none => return .failure (← error)

/-! ## Looking at an effect -/

/-- The value of a success. -/
def success? : Effect S → Option S.Value
  | .success value => some value
  | _ => none

/-- The error of a failure. -/
def failure? : Effect S → Option S.Error
  | .failure error => some error
  | _ => none

/-- The label of a pending operation. -/
def label? : Effect S → Option Label
  | .command c => some c.label
  | _ => none

def isSuccess (e : Effect S) : Bool := e.success?.isSome

def isFailure (e : Effect S) : Bool := e.failure?.isSome

def isCommand (e : Effect S) : Bool := e.label?.isSome

/-- The result of an effect that is finished or failed. -/
def outcome? : Effect S → Option (Except S.Error S.Value)
  | .success value => some (.ok value)
  | .failure error => some (.error error)
  | .command _ => none

/-- Outcomes are equal when they hold equal values or equal errors, commands when they carry the
same label: what happens after an operation cannot be compared. -/
def beq [BEq S.Value] [BEq S.Error] : Effect S → Effect S → Bool
  | .success a, .success b => a == b
  | .failure a, .failure b => a == b
  | .command a, .command b => a.label == b.label
  | _, _ => false

instance [BEq S.Value] [BEq S.Error] : BEq (Effect S) := ⟨beq⟩

/-- The rendered form of an effect, given those of values and errors. -/
def shown (value : S.Value → Shown) (error : S.Error → Shown) : Effect S → Shown
  | .success v => .tuple "Success" [value v]
  | .failure e => .tuple "Failure" [error e]
  | .command c => .tuple "Command" [.atom (Text.quoted c.label.text)]

end Effect

/-! ## Meanings -/

/-- The effects that the names of a signature stand for. -/
structure Meaning (S : Signature) where
  call : S.Fn → S.Value → Action S (Effect S)
  resume : {r : S.ResultType} → S.Cont r → S.Result r → Action S (Effect S)
  tryResume : {r : S.ResultType} → S.TryCont r → S.Result r →
    Action S (Except S.Error (Effect S))

/-- Apply a continuation to the result of its operation. -/
def Continuation.apply (M : Meaning S) {r : S.ResultType} (k : Continuation S r)
    (result : S.Result r) : Action S (Except S.Error (Effect S)) :=
  match k with
  | .total k => return .ok (← M.resume k result)
  | .fallible k => M.tryResume k result

end Deferred
