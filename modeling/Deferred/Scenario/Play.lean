import Deferred.Pipeline
import Deferred.Scenario.Stage

/-!
# Play — from the syntax of a scenario to effects

Building an effect calls no operation; it may call steps, when a combinator is put behind an
outcome.  A definition that goes on calling itself without an operation in between never comes
to an effect, so calls inside calls are limited in depth.  Operations do not count: what comes
after one starts again with the full depth.

* `StepSpec.toStep`, `LinkSpec.toLink` — functions with their log lines and counters;
* `Flow.build` — the effect of a flow;
* `Flow.buildOrFault` — the effect or the fault of a fallible continuation;
* `meaning` — the effects of closures and resumptions, for calls up to a given depth.
-/

namespace Deferred.Scenario

/-! ## Steps and links -/

/-- A function with its counter, which is made now. -/
def counted (name : Option String) (step : Step signature) : Action signature (Step signature) :=
  match name with
  | none => return step
  | some name => return (← counter name).watch step

/-- The step of a specification, closed over an environment. -/
def StepSpec.toStep (env : Env) (spec : StepSpec) : Action signature (Step signature) :=
  let call : Step signature := .call (⟨spec.param, spec.body, env⟩ : Closure)
  counted spec.usage.counter <| match spec.usage.tag with
    | none => call
    | some tag => .after (write (.called tag)) call

/-- The link of a specification, closed over an environment. -/
def LinkSpec.toLink (env : Env) : LinkSpec → Action signature (Link signature)
  | .andThen spec => return .onSuccess (← spec.toStep env)
  | .map param body usage =>
      let f (v : Value) : Action signature Value := do
        note .called usage.tag
        return body.eval ((param, v) :: env)
      return .onSuccess (← counted usage.counter (.map f))
  | .mapErr param body usage => do
      let f (v : Value) : Action signature Value := do
        note .called usage.tag
        return body.eval ((param, v) :: env)
      match usage.counter with
      | none => return .onError f
      | some name => return .onError ((← counter name).watchErr f)
  | .ensure param condition error usage =>
      let holds (v : Value) : Action signature Bool := do
        note .predicate usage.tag
        return (condition.eval ((param, v) :: env)).truthy
      let fail : Action signature Value := do
        note .error usage.tag
        return error.eval env
      return .onSuccess (.ensure holds fail)

/-- Put a link behind an effect a number of times. -/
def linkTimes (M : Meaning signature) (link : Link signature) :
    Nat → Effect signature → Action signature (Effect signature)
  | 0, e => return e
  | n + 1, e => do linkTimes M link n (← e.link M link)

/-- Put a specified link behind an effect, as often as it says. -/
def LinkSpec.apply (M : Meaning signature) (env : Env) (spec : LinkSpec) (e : Effect signature) :
    Action signature (Effect signature) :=
  if spec.times = 0 then return e
  else do linkTimes M (← spec.toLink env) spec.times e

/-- Put specified links behind an effect in order. -/
def applyLinks (M : Meaning signature) (env : Env) :
    List LinkSpec → Effect signature → Action signature (Effect signature)
  | [], e => return e
  | spec :: rest, e => do applyLinks M env rest (← spec.apply M env e)

/-- Append a step to a pipeline a number of times. -/
def pushTimes (step : Step signature) : Nat → Pipeline signature → Pipeline signature
  | 0, p => p
  | n + 1, p => pushTimes step n (p.push step)

/-- Append a specified step to a pipeline a number of times. -/
def StepSpec.append (env : Env) (times : Nat) (p : Pipeline signature) (spec : StepSpec) :
    Action signature (Pipeline signature) :=
  if times = 0 then return p
  else return pushTimes (← spec.toStep env) times p

/-- Append specified steps to a pipeline in order. -/
def appendSteps (env : Env) (assembly : Assembly) :
    List StepSpec → Pipeline signature → Action signature (Pipeline signature)
  | [], p => return p
  | spec :: rest, p => do
      appendSteps env assembly rest (← spec.append env (spec.timesIn assembly) p)

/-! ## Flows -/

/-- The outcome of an operation, with the lines that it leaves in the log. -/
def Operation.perform (env : Env) (op : Operation) (label : String) :
    Action signature (Except Value op.type.Carrier) := do
  write (.operation label)
  match op.outcome with
  | .error error => return .error (error.eval env)
  | .ok value =>
      write (.finished label)
      return .ok (op.type.make (value.eval env))

/-- The command of an operation and the flow behind it. -/
def Operation.toEffect (env : Env) (op : Operation) (fallible : Bool) (param : String)
    (next : Flow) : Effect signature :=
  let label := (op.label.eval env).text
  let k : Resumption := { param, body := next, env, label }
  let run := op.perform env label
  if fallible then Effect.tryDeferred (S := signature) ⟨label⟩ (r := op.type) run k
  else Effect.deferred (S := signature) ⟨label⟩ (r := op.type) run k

namespace Flow

variable (defs : Definitions) (M : Meaning signature)

/-- The effect of a flow. -/
def build : Flow → Env → Action signature (Effect signature)
  | .success value, env => return .success (value.eval env)
  | .failure error, env => return .failure (error.eval env)
  | .result (.ok value), env => return .ofExcept (.ok (value.eval env))
  | .result (.error error), env => return .ofExcept (.error (error.eval env))
  | .option value error tag, env =>
      Effect.ofOption (value.map (·.eval env)) do
        note .error tag
        return error.eval env
  | .command op fallible param next, env => return op.toEffect env fallible param next
  | .fault error, env => return .failure (error.eval env)
  | .ite condition yes no, env =>
      if (condition.eval env).truthy then build yes env else build no env
  | .bind name value body, env => build body ((name, value.eval env) :: env)
  | .call name arg, env =>
      match defs.lookup name with
      | none => return .failure (Value.str ("no def " ++ name))
      | some spec => do (← spec.toStep []).run M (arg.eval env)
  | .link flow links, env => do applyLinks M env links (← build flow env)
  | .pipe assembly steps start, env => do
      (← appendSteps env assembly steps .empty).run M (start.eval env)

/-- The effect or the fault of a flow that continues a fallible command. -/
def buildOrFault : Flow → Env → Action signature (Except Value (Effect signature))
  | .fault error, env => return .error (error.eval env)
  | .ite condition yes no, env =>
      if (condition.eval env).truthy then buildOrFault yes env else buildOrFault no env
  | .bind name value body, env => buildOrFault body ((name, value.eval env) :: env)
  | flow, env => return .ok (← build defs M flow env)

end Flow

/-! ## Meaning -/

/-- The environment of a continuation's flow, and the line that it leaves in the log. -/
def Resumption.enter (k : Resumption) (v : Value) : Action signature Env := do
  write (.continuation k.label)
  return (k.param, v) :: k.env

/-- The effects of closures and resumptions when calls go no deeper than a given depth. -/
def meaning (defs : Definitions) : Nat → Meaning signature
  | 0 =>
      { call := fun _ _ => return .failure (Value.str "calls are nested too deeply")
        resume := fun _ _ => return .failure (Value.str "calls are nested too deeply")
        tryResume := fun _ _ => return .error (Value.str "calls are nested too deeply") }
  | depth + 1 =>
      { call := fun (f : Closure) (v : Value) =>
          f.body.build defs (meaning defs depth) ((f.param, v) :: f.env)
        resume := fun {r} (k : Resumption) result => do
          let env ← k.enter (ResultType.toValue r result)
          k.body.build defs (meaning defs depth) env
        tryResume := fun {r} (k : Resumption) result => do
          let env ← k.enter (ResultType.toValue r result)
          k.body.buildOrFault defs (meaning defs depth) env }

end Deferred.Scenario
