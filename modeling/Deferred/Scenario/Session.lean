import Deferred.Assertion
import Deferred.Effect.Resume
import Deferred.Scenario.Play

/-!
# Session — a scenario that is played instruction by instruction

A session keeps effects and pipelines in named slots.  Every instruction has an answer and the
lines it left in the log.

* `Instruction`, `Answer` — what can be asked, and what comes back;
* `Session` — the slots;
* `Session.perform` — one instruction;
* `performAll`, `Script.play` — the instructions of a scenario, in order.
-/

namespace Deferred.Scenario

/-! ## Slots -/

/-- Values under names. -/
abbrev Slots (α : Type) := List (String × α)

namespace Slots

variable {α : Type}

/-- Empty a slot. -/
def erase (slots : Slots α) (name : String) : Slots α :=
  slots.filter fun (n, _) => n != name

/-- Fill a slot, whatever it held before. -/
def put (slots : Slots α) (name : String) (value : α) : Slots α :=
  (name, value) :: erase slots name

end Slots

/-- The slots of a session. -/
structure Session where
  effects : Slots (Effect signature) := []
  pipelines : Slots (Pipeline signature) := []

/-! ## Instructions and answers -/

/-- How an effect is run. -/
inductive RunMode where
  | plain
  | traced
  | within (span : String)

/-- What an effect is expected to be. -/
inductive Expectation where
  | success (value : Option Expr)
  | failure (error : Option Expr)
  | command (label : Option Expr)

/-- One instruction. -/
inductive Instruction where
  | build (slot : String) (flow : Flow)
  | link (slot : String) (link : LinkSpec)
  | describe (slot : String)
  | compare (left right : String)
  | outcome (slot : String)
  | resume (slot : String) (type : ResultType) (value : Expr)
  | run (slot : String) (mode : RunMode)
  | assert (slot : String) (expectation : Expectation)
  | drop (slot : String)
  | pipe (name : String) (assembly : Assembly) (steps : List StepSpec)
  | pipeThen (name : String) (step : StepSpec)
  | pipeClone (name copy : String)
  | pipeRun (name slot : String) (start : Expr)
  | pipeMap (name : String) (starts : List Expr)
  | pipeInfo (name : String)
  | record (counter : String) (times : Nat)
  | counters

/-- The answer to one instruction. -/
inductive Answer where
  | missing
  | nothing
  | effect (e : Effect signature)
  | description (e : Effect signature)
  | comparison (equal : Bool)
  | outcome (result : Option (Except Value Value))
  | refused (error : ResumeError)
  | finished (result : Except Value Value) (trace : Option Trace)
  | unfinished
  | asserted (result : Except AssertionFailure Unit)
  | size (n : Nat)
  | effects (es : List (Effect signature))
  | pipeline (p : Pipeline signature)
  | count (n : UInt64)
  | counts (all : List (String × UInt64))

/-- The rendered form of an effect of a scenario. -/
def shownEffect (e : Effect signature) : Shown :=
  e.shown Value.shown Value.shown

instance : BEq signature.Value := inferInstanceAs (BEq Value)
instance : BEq signature.Error := inferInstanceAs (BEq Value)

/-! ## One instruction -/

/-- How deep calls may go inside each other, and how many operations a run may invoke. -/
structure Limits where
  depth : Nat := 1000000
  operations : Nat := 1000000000

namespace Session

variable (defs : Definitions) (limits : Limits)

/-- The interpreter of a scenario writes its events to the log. -/
def interpreter : Interpreter signature where
  meaning := meaning defs limits.depth
  observe e := write (.event e)

/-- Answer with the effect in a slot, which stays there. -/
def look (s : Session) (slot : String) (answer : Effect signature → Answer) : Answer :=
  match s.effects.lookup slot with
  | none => .missing
  | some e => answer e

/-- Take an effect out of its slot and go on with it. -/
def take (s : Session) (slot : String)
    (next : Effect signature → Session → Action signature (Answer × Session)) :
    Action signature (Answer × Session) :=
  match s.effects.lookup slot with
  | none => return (.missing, s)
  | some e => next e { s with effects := s.effects.erase slot }

/-- Fill a slot with an effect and answer with it. -/
def store (s : Session) (slot : String) (e : Effect signature) : Answer × Session :=
  (.effect e, { s with effects := s.effects.put slot e })

/-- Go on with the pipeline of a name. -/
def withPipeline (s : Session) (name : String)
    (next : Pipeline signature → Action signature (Answer × Session)) :
    Action signature (Answer × Session) :=
  match s.pipelines.lookup name with
  | none => return (.missing, s)
  | some p => next p

/-- Keep a pipeline under a name and answer with its size. -/
def keep (s : Session) (name : String) (p : Pipeline signature) : Answer × Session :=
  (.size p.size, { s with pipelines := s.pipelines.put name p })

/-- Compare an effect with what it is expected to be. -/
def check (e : Effect signature) : Expectation → Except AssertionFailure Unit
  | .success value => e.expectSuccess Value.shown Value.shown (value.map (·.eval []))
  | .failure error => e.expectFailure Value.shown Value.shown (error.map (·.eval []))
  | .command label =>
      e.expectCommand Value.shown Value.shown ((label.map fun l => (l.eval []).text).getD "")

/-- Drive an effect to its outcome. -/
def runAs (e : Effect signature) : RunMode → Action signature Answer
  | .plain => do
      match ← (interpreter defs limits).run limits.operations e with
      | none => return .unfinished
      | some result => return .finished result none
  | .traced => do
      match ← (interpreter defs limits).runRecorded limits.operations e with
      | none => return .unfinished
      | some (result, trace) => return .finished result (some trace)
  | .within span => do
      match ← (interpreter defs limits).runWithin span limits.operations e with
      | none => return .unfinished
      | some result => return .finished result none

/-- Record calls of a counter. -/
def recordTimes (c : Counter) : Nat → Action signature Unit
  | 0 => return ()
  | n + 1 => do
      c.record (S := signature)
      recordTimes c n

/-- Run a pipeline on each start value. -/
def runOnEach (p : Pipeline signature) :
    List Expr → Action signature (List (Effect signature))
  | [] => return []
  | start :: rest => do
      let e ← p.run (meaning defs limits.depth) (start.eval [])
      return e :: (← runOnEach p rest)

/-- Perform one instruction. -/
def perform (s : Session) : Instruction → Action signature (Answer × Session)
  | .build slot flow => do
      return s.store slot (← flow.build defs (meaning defs limits.depth) [])
  | .link slot link =>
      match s.effects.lookup slot with
      | none => return (.missing, s)
      | some e => do return s.store slot (← link.apply (meaning defs limits.depth) [] e)
  | .describe slot => return (s.look slot .description, s)
  | .compare left right =>
      match s.effects.lookup left, s.effects.lookup right with
      | some a, some b => return (.comparison (a == b), s)
      | _, _ => return (.missing, s)
  | .outcome slot => s.take slot fun e s => return (.outcome e.outcome?, s)
  | .resume slot type value => s.take slot fun e s => do
      let result := type.make (value.eval [])
      match ← e.resume (meaning defs limits.depth) type result with
      | .ok next => return s.store slot next
      | .error error => return (.refused error, s)
  | .run slot mode => s.take slot fun e s => do return (← runAs defs limits e mode, s)
  | .assert slot expectation =>
      match expectation with
      | .command label =>
          return (s.look slot fun e => .asserted (check e (.command label)), s)
      | expectation => s.take slot fun e s => return (.asserted (check e expectation), s)
  | .drop slot => s.take slot fun _ s => return (.nothing, s)
  | .pipe name assembly steps => do
      return s.keep name (← appendSteps [] assembly steps .empty)
  | .pipeThen name step => s.withPipeline name fun p => do
      return s.keep name (← step.append [] step.usage.times p)
  | .pipeClone name copy => s.withPipeline name fun p => return s.keep copy p
  | .pipeRun name slot start => s.withPipeline name fun p => do
      return s.store slot (← p.run (meaning defs limits.depth) (start.eval []))
  | .pipeMap name starts => s.withPipeline name fun p => do
      let es ← runOnEach defs limits p starts
      return (.effects es, { s with pipelines := s.pipelines.erase name })
  | .pipeInfo name => s.withPipeline name fun p => return (.pipeline p, s)
  | .record name times => do
      let c ← counter name
      recordTimes c times
      let stage : Stage ← get
      return (.count (c.count stage.counters), s)
  | .counters => do
      let stage : Stage ← get
      return (.counts (stage.counterNames.map fun (name, c) => (name, c.count stage.counters)), s)

end Session

/-! ## A whole scenario -/

/-- Definitions, and instructions in order. -/
structure Script where
  defs : Definitions
  instructions : List Instruction

/-- An answer and the lines that its instruction left in the log. -/
structure Reply where
  answer : Answer
  log : Array LogLine

/-- Perform instructions in order. -/
def performAll (defs : Definitions) (limits : Limits) :
    List Instruction → Session → Action signature (List Reply)
  | [], _ => return []
  | instruction :: rest, s => do
      let (answer, s) ← s.perform defs limits instruction
      let log ← takeLog
      return ⟨answer, log⟩ :: (← performAll defs limits rest s)

/-- Play a scenario on an empty stage. -/
def Script.play (script : Script) (limits : Limits) : List Reply :=
  ((performAll script.defs limits script.instructions {}).run {}).1

end Deferred.Scenario
