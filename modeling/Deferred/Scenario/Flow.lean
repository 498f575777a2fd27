import Deferred.Scenario.Expr
import Deferred.Scenario.ResultType

/-!
# Flow — the syntax of effects in scenarios

* `Flow` — an expression whose value is an effect;
* `StepSpec` — a function from a value to an effect;
* `LinkSpec` — a combinator that is put behind an effect;
* `Usage` — how the function of a step or link is watched and how often it is put in;
* `Assembly` — how a pipeline is put together.
-/

namespace Deferred.Scenario

/-- How a function is watched, and how often it is put in.  `tag` names it in the log, `counter`
names the counter of its calls. -/
structure Usage where
  tag : Option String := none
  counter : Option String := none
  times : Nat := 1

/-- How a pipeline is put together: step by step, each as often as its usage says, or from a list
that names each step once. -/
inductive Assembly where
  | stepwise
  | listed

/-- An operation: its label, the type of its result, and the result or the error that it ends
with. -/
structure Operation where
  label : Expr
  type : ResultType
  outcome : Except Expr Expr

mutual

/-- An expression whose value is an effect.

* `success`, `failure`, `result`, `option` — outcomes; the error of `option` is only computed
  when there is no value;
* `command` — an operation and the flow that its result is bound in;
* `fault` — in the continuation of a fallible command, a fault; anywhere else a failure;
* `ite`, `bind` — choose a flow, bind a name in it;
* `call` — apply a definition of the scenario;
* `link` — put combinators behind a flow;
* `pipe` — build a pipeline and run it. -/
inductive Flow where
  | success (value : Expr)
  | failure (error : Expr)
  | result (outcome : Except Expr Expr)
  | option (value : Option Expr) (error : Expr) (tag : Option String)
  | command (operation : Operation) (fallible : Bool) (param : String) (next : Flow)
  | fault (error : Expr)
  | ite (condition : Expr) (yes no : Flow)
  | bind (name : String) (value : Expr) (body : Flow)
  | call (name : String) (arg : Expr)
  | link (flow : Flow) (links : List LinkSpec)
  | pipe (assembly : Assembly) (steps : List StepSpec) (start : Expr)

/-- A function from a value to an effect. -/
inductive StepSpec where
  | mk (param : String) (body : Flow) (usage : Usage)

/-- A combinator that is put behind an effect. -/
inductive LinkSpec where
  | andThen (step : StepSpec)
  | map (param : String) (body : Expr) (usage : Usage)
  | mapErr (param : String) (body : Expr) (usage : Usage)
  | ensure (param : String) (condition error : Expr) (usage : Usage)

end

namespace StepSpec

def param : StepSpec → String
  | .mk param _ _ => param

def body : StepSpec → Flow
  | .mk _ body _ => body

def usage : StepSpec → Usage
  | .mk _ _ usage => usage

/-- How often a step is put into a pipeline. -/
def timesIn : Assembly → StepSpec → Nat
  | .stepwise, spec => spec.usage.times
  | .listed, _ => 1

end StepSpec

/-- How often a combinator is put in. -/
def LinkSpec.times : LinkSpec → Nat
  | .andThen step => step.usage.times
  | .map _ _ usage => usage.times
  | .mapErr _ _ usage => usage.times
  | .ensure _ _ _ usage => usage.times

/-- The definitions of a scenario. -/
abbrev Definitions := List (String × StepSpec)

end Deferred.Scenario
