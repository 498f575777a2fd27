import Deferred.Label

/-!
# Trace — what one run did

* `Phase` — which half of a command faulted, its operation or its continuation;
* `Fault` — which command faulted, and in which half;
* `Trace` — the labels of all operations that were invoked, and the fault that ended the run.

A failure that a rule builds on purpose is an outcome and not a fault.
-/

namespace Deferred

/-- The halves of a command. -/
inductive Phase where
  | operation
  | continuation
  deriving DecidableEq

namespace Phase

/-- The name of a phase in running text. -/
def word : Phase → String
  | .operation => "operation"
  | .continuation => "continuation"

/-- The name of a phase as a constant. -/
def constant : Phase → String
  | .operation => "Operation"
  | .continuation => "Continuation"

/-- The phase with a given name. -/
def ofConstant? (name : String) : Option Phase :=
  if name = "Operation" then some .operation
  else if name = "Continuation" then some .continuation
  else none

/-- The rendered form of a phase. -/
def shown (p : Phase) : Shown := .atom p.constant

end Phase

/-- Where a run faulted.  The error itself is the result of the run. -/
structure Fault where
  label : Label
  phase : Phase
  deriving DecidableEq

namespace Fault

/-- The sentence that reports a fault. -/
def message (f : Fault) : String :=
  f.phase.word ++ " of `" ++ f.label.text ++ "` failed"

/-- The rendered form of a fault. -/
def shown (f : Fault) : Shown :=
  .record "Fault" [("label", f.label.shown), ("phase", f.phase.shown)]

end Fault

/-- The record of one run. -/
structure Trace where
  executed : Array Label := #[]
  fault : Option Fault := none
  deriving DecidableEq

namespace Trace

/-- The record of a run that invoked nothing. -/
def empty : Trace := {}

/-- Note that an operation is invoked. -/
def push (t : Trace) (label : Label) : Trace :=
  { t with executed := t.executed.push label }

/-- Note the fault that ends the run. -/
def faultedAt (t : Trace) (fault : Fault) : Trace :=
  { t with fault := some fault }

/-- How many operations were invoked. -/
def size (t : Trace) : Nat := t.executed.size

def isEmpty (t : Trace) : Bool := t.executed.isEmpty

/-- The rendered form of a trace. -/
def shown (t : Trace) : Shown :=
  .record "Trace"
    [("executed", .list (t.executed.toList.map Label.shown)),
      ("fault", match t.fault with
        | none => .atom "None"
        | some fault => .tuple "Some" [fault.shown])]

end Trace

end Deferred
