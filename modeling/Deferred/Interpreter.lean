import Deferred.Effect.Passage
import Deferred.Trace.Basic

/-!
# Interpreter — the only place where operations are invoked

An interpreter takes an effect and, for as long as it is a command, invokes the operation and
hands its result to the continuation and the queue behind it.  One operation is in flight at a
time.  The first error ends the run and is its result, after the error transformations that are
queued behind the command that faulted.

* `Event` — what a run reports while it is under way;
* `Command.advance` — one operation and what it sets off;
* `Interpreter.runFor` — steps until an outcome is reached, within a number of commands;
* `Interpreter.running`, `Interpreter.recording` — without a record, and with one, in any span;
* `Interpreter.run`, `Interpreter.runRecorded`, `Interpreter.runWithin` — the same in no span, and
  in one.
-/

namespace Deferred

variable {S : Signature}

/-! ## Events -/

/-- What a run reports: an operation is about to be invoked, or a command has faulted. -/
inductive Report where
  | running (label : Label)
  | faulted (label : Label) (phase : Phase)
  deriving DecidableEq

/-- A report and the span it lies in, if there is one. -/
structure Event where
  span : Option String
  report : Report
  deriving DecidableEq

namespace Event

/-- The line that an event is logged as. -/
def text (e : Event) : String :=
  let place := match e.span with
    | none => ": "
    | some span => " in " ++ span ++ ": "
  match e.report with
  | .running label => "TRACE" ++ place ++ "running deferred command command=" ++ label.text
  | .faulted label phase =>
      "DEBUG" ++ place ++ "deferred command faulted command=" ++ label.text
        ++ " phase=" ++ phase.word

end Event

/-! ## One command -/

/-- Where one command leads to: a further effect, or a fault. -/
inductive Advance (S : Signature) where
  | next (e : Effect S)
  | fault (phase : Phase) (error : S.Error)

/-- Invoke the operation of a command and hand its result on. -/
def Command.advance (M : Meaning S) (c : Command S) : Action S (Advance S) := do
  match ← c.request.operation with
  | .error error => return .fault .operation (← passError error c.queue)
  | .ok result =>
      match ← c.request.continuation.apply M result with
      | .error error => return .fault .continuation (← passError error c.queue)
      | .ok next => return .next (← next.pass M c.queue)

/-! ## Runs -/

/-- What a run needs to know: the effects that names stand for, and what becomes of events. -/
structure Interpreter (S : Signature) where
  meaning : Meaning S
  observe : Event → Action S Unit

/-- The end of a run: its result, and its record if one is kept. -/
structure Finished (S : Signature) where
  result : Except S.Error S.Value
  trace : Option Trace

namespace Interpreter

/-- Drive an effect to its outcome, invoking at most the given number of operations; `none` if
that is not enough.  A record is kept if one is handed in. -/
def runFor (I : Interpreter S) (span : Option String) :
    Nat → Effect S → Option Trace → Action S (Option (Finished S))
  | _, .success value, trace => return some ⟨.ok value, trace⟩
  | _, .failure error, trace => return some ⟨.error error, trace⟩
  | 0, .command _, _ => return none
  | limit + 1, .command c, trace => do
      I.observe ⟨span, .running c.label⟩
      let trace := trace.map (·.push c.label)
      match ← c.advance I.meaning with
      | .next e => runFor I span limit e trace
      | .fault phase error =>
          I.observe ⟨span, .faulted c.label phase⟩
          return some ⟨.error error, trace.map (·.faultedAt ⟨c.label, phase⟩)⟩

/-- Drive an effect to its outcome, with all events in a span if there is one. -/
def running (I : Interpreter S) (limit : Nat) (e : Effect S) (span : Option String) :
    Action S (Option (Except S.Error S.Value)) :=
  return (← I.runFor span limit e none).map (·.result)

/-- Drive an effect to its outcome and keep a record, with all events in a span if there is one. -/
def recording (I : Interpreter S) (limit : Nat) (e : Effect S) (span : Option String) :
    Action S (Option (Except S.Error S.Value × Trace)) :=
  return (← I.runFor span limit e (some .empty)).map fun f =>
    (f.result, f.trace.getD .empty)

/-- Drive an effect to its outcome. -/
def run (I : Interpreter S) (limit : Nat) (e : Effect S) :
    Action S (Option (Except S.Error S.Value)) :=
  I.running limit e none

/-- Drive an effect to its outcome and keep a record. -/
def runRecorded (I : Interpreter S) (limit : Nat) (e : Effect S) :
    Action S (Option (Except S.Error S.Value × Trace)) :=
  I.recording limit e none

/-- Drive an effect to its outcome with every event inside a span. -/
def runWithin (I : Interpreter S) (span : String) (limit : Nat) (e : Effect S) :
    Action S (Option (Except S.Error S.Value)) :=
  I.running limit e (some span)

end Interpreter

end Deferred
