import Deferred.Counter
import Deferred.Interpreter
import Deferred.Scenario.Flow

/-!
# Stage — what the effects of a scenario act on

Every call that a scenario makes visible leaves a line in a log, and calls are counted by named
counters.  The log and the counters are the world of a scenario's effects.

* `LogLine` — one visible call or event;
* `Stage` — the log and the counters;
* `Closure`, `Resumption` — the names of steps and continuations: syntax and what it closes over;
* `signature` — the signature of a scenario's effects.
-/

namespace Deferred.Scenario

/-! ## The log -/

/-- One visible call or event. -/
inductive LogLine where
  | operation (label : String)
  | finished (label : String)
  | continuation (label : String)
  | called (tag : String)
  | predicate (tag : String)
  | error (tag : String)
  | event (e : Event)
  deriving DecidableEq

/-- The text of a line. -/
def LogLine.text : LogLine → String
  | .operation label => "op " ++ label
  | .finished label => "end " ++ label
  | .continuation label => "cont " ++ label
  | .called tag => "f " ++ tag
  | .predicate tag => "p " ++ tag
  | .error tag => "err " ++ tag
  | .event e => e.text

/-- The log and the counters of a scenario. -/
structure Stage where
  log : Array LogLine := #[]
  counters : Counters := {}
  counterNames : List (String × Counter) := []

instance : Counting Stage where
  counters stage := stage.counters
  modifyCounters f stage := { stage with counters := f stage.counters }
  counters_modify _ _ := rfl
  modify_modify _ _ _ := rfl
  modify_id _ := rfl

/-! ## Names of steps and continuations -/

/-- A step: a parameter, a body, and what the body's other names are bound to. -/
structure Closure where
  param : String
  body : Flow
  env : Env

/-- A continuation, which also knows the label of its command. -/
structure Resumption extends Closure where
  label : String

/-- The signature of a scenario's effects. -/
def signature : Signature where
  World := Stage
  Value := Value
  Error := Value
  ResultType := ResultType
  Result := ResultType.Carrier
  typeName := ResultType.name
  Fn := Closure
  Cont := fun _ => Resumption
  TryCont := fun _ => Resumption

instance : Counting signature.World := inferInstanceAs (Counting Stage)

/-! ## Acting on the stage -/

/-- Add a line to the log. -/
def write (line : LogLine) : Action signature Unit :=
  modify fun (stage : Stage) => { stage with log := stage.log.push line }

/-- Add a line for a tag to the log, if there is a tag. -/
def note (line : String → LogLine) : Option String → Action signature Unit
  | none => pure ()
  | some tag => write (line tag)

/-- Take the lines out of the log. -/
def takeLog : Action signature (Array LogLine) :=
  modifyGet fun (stage : Stage) => (stage.log, { stage with log := #[] })

/-- The counter with a name.  It is made when the name is first used. -/
def counter (name : String) : Action signature Counter := do
  let stage : Stage ← get
  match stage.counterNames.lookup name with
  | some c => return c
  | none =>
      let c ← Counter.create
      modify fun (stage : Stage) => { stage with counterNames := (name, c) :: stage.counterNames }
      return c

end Deferred.Scenario
