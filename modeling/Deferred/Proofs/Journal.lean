import Deferred.Proofs.Passage
import Deferred.Proofs.Run

/-!
# Journal — the same effects in a world that keeps a journal

To say what a run has done, and in which order, every operation, every function and every report
writes a line into a journal beside the world, and does what it did before.  The effects that come
of it are run by the same interpreter.

* `Journal.Entry` — a line of the journal;
* `Journal.Block` — the lines of one command;
* `Signature.journaled` — a signature whose world has a journal beside it;
* `Effect.journaled`, `Meaning.journaled`, `Interpreter.journaled` — effects, functions behind
  names, and reports that write into it;
* `Journal.Echoes` — a computation does what another one does, and writes certain lines;
* `Command.echoes_advance` — a command leaves one block of lines.
-/

namespace Deferred

variable {S : Signature}

/-! ## What is written -/

namespace Journal

/-- A line: a report was made; the operation or the continuation of the command with a label was
called, and has returned a result or an error; a function of a step was called; an error was
transformed. -/
inductive Entry where
  | event (e : Event)
  | operation (label : Label) (succeeded : Bool)
  | continuation (label : Label) (succeeded : Bool)
  | step
  | transformation
  deriving DecidableEq

/-- Nothing but functions of links was called. -/
def Calls (entries : List Entry) : Prop :=
  ∀ entry ∈ entries, entry = .step ∨ entry = .transformation

/-- Nothing but errors was transformed. -/
def Transformations (entries : List Entry) : Prop :=
  ∀ entry ∈ entries, entry = .transformation

theorem Transformations.calls {entries : List Entry} (h : Transformations entries) :
    Calls entries :=
  fun entry hentry => .inr (h entry hentry)

theorem Calls.append {entries more : List Entry} (h : Calls entries) (hmore : Calls more) :
    Calls (entries ++ more) :=
  List.forall_mem_append.2 ⟨h, hmore⟩

theorem Transformations.append {entries more : List Entry} (h : Transformations entries)
    (hmore : Transformations more) : Transformations (entries ++ more) :=
  List.forall_mem_append.2 ⟨h, hmore⟩

theorem calls_step : Calls [.step] := by
  intro entry hentry
  exact .inl (List.mem_singleton.1 hentry)

theorem transformations_singleton : Transformations [.transformation] := by
  intro entry hentry
  exact List.mem_singleton.1 hentry

/-- What one command has left in a journal: the half in which it faulted, if it did, and the
functions that its queue has called.  After a fault these have transformed the error. -/
structure Block where
  label : Label
  phase : Option Phase
  calls : List Entry
  calls_only : Calls calls
  fault_only : phase ≠ none → Transformations calls

namespace Block

/-- The fault of a block. -/
def fault (b : Block) : Option Fault := b.phase.map fun phase => ⟨b.label, phase⟩

theorem fault_of_phase {b : Block} {phase : Phase} (h : b.phase = some phase) :
    b.fault = some ⟨b.label, phase⟩ := by
  rw [fault, h, Option.map_some]

theorem fault_eq_none {b : Block} (h : b.phase = none) : b.fault = none := by
  rw [fault, h, Option.map_none]

/-- The operation was called.  If it has returned a result, so was the continuation. -/
def answers (b : Block) : List Entry :=
  match b.phase with
  | none => [.operation b.label true, .continuation b.label true]
  | some .operation => [.operation b.label false]
  | some .continuation => [.operation b.label true, .continuation b.label false]

/-- The lines of a block behind its report: answers first, and then what the queue has called. -/
def work (b : Block) : List Entry := b.answers ++ b.calls

/-- The lines of a block. -/
def entries (span : Option String) (b : Block) : List Entry :=
  .event ⟨span, .running b.label⟩ :: b.work

end Block

end Journal

/-- The same family of effects in a world with a journal beside it.  Names of continuations carry
the label of the command that they were given to. -/
abbrev Signature.journaled (S : Signature) : Signature where
  World := S.World × List Journal.Entry
  Value := S.Value
  Error := S.Error
  ResultType := S.ResultType
  Result := S.Result
  typeName := S.typeName
  Fn := S.Fn
  Cont r := Label × S.Cont r
  TryCont r := Label × S.TryCont r

namespace Journal

/-- What a computation did before, with the journal left as it is. -/
def keep {α : Type} (x : Action S α) : Action S.journaled α :=
  fun s => ((x s.1).1, ((x s.1).2, s.2))

def write (entry : Entry) : Action S.journaled Unit :=
  fun s => ((), (s.1, s.2 ++ [entry]))

def noted {α : Type} (entry : Entry) (x : Action S α) : Action S.journaled α := do
  write entry
  keep x

end Journal

open Journal

mutual

/-- A step whose functions note their calls. -/
def Step.journaled : Step S → Step S.journaled
  | .call f => .call f
  | .map f => .map fun value => noted .step (f value)
  | .ensure holds error => .ensure (fun value => noted .step (holds value)) (noted .step error)
  | .andThen first next => .andThen first.journaled next.journaled
  | .mapErr step f => .mapErr step.journaled fun error => noted .transformation (f error)
  | .after before step => .after (noted .step before) step.journaled
  | .pipeline steps => .pipeline (Step.journaledAll steps)

def Step.journaledAll : List (Step S) → List (Step S.journaled)
  | [] => []
  | step :: rest => step.journaled :: Step.journaledAll rest

end

def Link.journaled : Link S → Link S.journaled
  | .onSuccess step => .onSuccess step.journaled
  | .onError f => .onError fun error => noted .transformation (f error)

def Continuation.journaled {r : S.ResultType} (label : Label) :
    Continuation S r → Continuation S.journaled r
  | .total k => .total (label, k)
  | .fallible k => .fallible (label, k)

/-- A request that notes its operation with the operation's answer. -/
def Request.journaled (label : Label) (request : Request S) : Request S.journaled where
  result := request.result
  operation := do
    let answer ← keep request.operation
    write (.operation label answer.isOk)
    return answer
  continuation := request.continuation.journaled label

def Command.journaled (c : Command S) : Command S.journaled where
  label := c.label
  request := c.request.journaled c.label
  queue := .ofList (c.queue.toList.map Link.journaled)

/-- An effect whose operations and functions write what is called. -/
def Effect.journaled : Effect S → Effect S.journaled
  | .success value => .success value
  | .failure error => .failure error
  | .command c => .command c.journaled

/-- What the functions behind the names did before, noted. -/
def Meaning.journaled (M : Meaning S) : Meaning S.journaled where
  call f value := Effect.journaled <$> noted .step (M.call f value)
  resume k result := do
    let e ← keep (M.resume k.2 result)
    write (.continuation k.1 true)
    return e.journaled
  tryResume k result := do
    let outcome ← keep (M.tryResume k.2 result)
    write (.continuation k.1 outcome.isOk)
    return outcome.map Effect.journaled

def Interpreter.journaled (I : Interpreter S) : Interpreter S.journaled where
  meaning := I.meaning.journaled
  observe event := noted (.event event) (I.observe event)

def Advance.journaled : Advance S → Advance S.journaled
  | .next e => .next e.journaled
  | .fault phase error => .fault phase error

/-- The half of a command in which it faulted. -/
def Advance.phase : Advance S → Option Phase
  | .next _ => none
  | .fault phase _ => some phase

/-! ## Echoes -/

/-- One computation does to the world what the other does, with corresponding values, and writes
lines of a certain kind behind those that are in the journal.  What it writes does not depend on
these. -/
def Journal.Echoes {α β : Type} (g : α → β) (P : α → List Entry → Prop) (x : Action S α)
    (x' : Action S.journaled β) : Prop :=
  ∀ w, ∃ entries, P (x w).1 entries ∧
    ∀ journal, x' (w, journal) = (g (x w).1, ((x w).2, journal ++ entries))

namespace Journal.Echoes

variable {α β γ δ : Type} {g : α → β} {h : γ → δ} {P : α → List Entry → Prop}
  {Q : γ → List Entry → Prop}

theorem pure {a : α} (ha : P a []) :
    Echoes (S := S) g P (Pure.pure a) (Pure.pure (g a)) := by
  intro w
  refine ⟨[], ha, fun journal => ?_⟩
  rw [List.append_nil]
  rfl

theorem bind {x : Action S α} {x' : Action S.journaled β} {f : α → Action S γ}
    {f' : β → Action S.journaled δ} (hx : Echoes g P x x')
    (hf : ∀ a entries, P a entries →
      Echoes h (fun c more => Q c (entries ++ more)) (f a) (f' (g a))) :
    Echoes h Q (x >>= f) (x' >>= f') := by
  intro w
  rcases hx w with ⟨entries, hP, hx'⟩
  rcases hf _ _ hP (x w).2 with ⟨more, hQ, hf'⟩
  refine ⟨entries ++ more, hQ, fun journal => ?_⟩
  rw [Action.bind_apply, hx', hf', Action.bind_apply, List.append_assoc]

theorem mono {P' : α → List Entry → Prop} {x : Action S α} {x' : Action S.journaled β}
    (hx : Echoes g P x x') (hP : ∀ a entries, P a entries → P' a entries) :
    Echoes g P' x x' := by
  intro w
  rcases hx w with ⟨entries, hentries, hx'⟩
  exact ⟨entries, hP _ _ hentries, hx'⟩

theorem called (x : Action S α) : Echoes id (fun _ => Calls) x (noted .step x) :=
  fun _ => ⟨[.step], calls_step, fun _ => rfl⟩

theorem transformed (x : Action S α) :
    Echoes id (fun _ => Transformations) x (noted .transformation x) :=
  fun _ => ⟨[.transformation], transformations_singleton, fun _ => rfl⟩

/-- Calls that are followed by calls. -/
theorem bind_calls {x : Action S α} {x' : Action S.journaled β} {f : α → Action S γ}
    {f' : β → Action S.journaled δ} (hx : Echoes g (fun _ => Calls) x x')
    (hf : ∀ a, Echoes h (fun _ => Calls) (f a) (f' (g a))) :
    Echoes h (fun _ => Calls) (x >>= f) (x' >>= f') :=
  hx.bind fun a _ hentries => (hf a).mono fun _ _ hmore => hentries.append hmore

end Journal.Echoes

/-! ## Chaining -/

theorem Command.journaled_push (c : Command S) (l : Link S) :
    (c.push l).journaled = c.journaled.push l.journaled := by
  have hqueue : Deque.ofList ((c.push l).queue.toList.map Link.journaled) =
      (Deque.ofList (c.queue.toList.map Link.journaled)).pushBack l.journaled :=
    Deque.ext (by simp)
  rw [journaled, hqueue]
  rfl

theorem passErrorAlong_echoes (error : S.Error) (links : List (Link S)) :
    Echoes id (fun _ => Transformations) (passErrorAlong error links)
      (passErrorAlong (S := S.journaled) error (links.map Link.journaled)) := by
  induction links generalizing error with
  | nil =>
    exact .pure nofun
  | cons l rest ih =>
    cases l with
    | onSuccess step =>
      exact ih error
    | onError f =>
      refine (Journal.Echoes.transformed (f error)).bind fun error' _ hentries => ?_
      exact (ih error').mono fun _ _ hmore => hentries.append hmore

theorem Effect.pure_echoes (e : Effect S) :
    Echoes (S := S) Effect.journaled (fun _ => Calls) (pure e) (pure e.journaled) :=
  .pure nofun

theorem Effect.mapErr_echoes (e : Effect S) (f : S.Error → Action S S.Error) :
    Echoes Effect.journaled (fun _ => Calls) (e.mapErr f)
      (e.journaled.mapErr fun error => noted .transformation (f error)) := by
  cases e with
  | success value =>
    exact Effect.pure_echoes (.success value)
  | failure error =>
    refine (Journal.Echoes.transformed (f error)).bind fun error' _ hentries => ?_
    exact .pure ((List.append_nil _).symm ▸ hentries.calls)
  | command c =>
    have hpure := Effect.pure_echoes (.command (c.push (.onError f)))
    rw [Effect.journaled, c.journaled_push] at hpure
    exact hpure

theorem Effect.andThen_echoes {M : Meaning S} (e : Effect S) {step : Step S}
    (hrun : ∀ value, Echoes Effect.journaled (fun _ => Calls) (step.run M value)
      (step.journaled.run M.journaled value)) :
    Echoes Effect.journaled (fun _ => Calls) (e.andThen M step)
      (e.journaled.andThen M.journaled step.journaled) := by
  cases e with
  | success value =>
    exact hrun value
  | failure error =>
    exact Effect.pure_echoes (.failure error)
  | command c =>
    have hpure := Effect.pure_echoes (.command (c.push (.onSuccess step)))
    rw [Effect.journaled, c.journaled_push] at hpure
    exact hpure

mutual

/-- A step that notes its calls produces what the step produces. -/
theorem Step.echoes_run (M : Meaning S) :
    ∀ (step : Step S) (value : S.Value),
      Echoes Effect.journaled (fun _ => Calls) (step.run M value)
        (step.journaled.run M.journaled value)
  | .call f, value => by
    rw [Step.journaled, Step.run, Step.run]
    exact fun _ => ⟨[.step], calls_step, fun _ => rfl⟩
  | .map f, value => by
    rw [Step.journaled, Step.run, Step.run]
    exact (Journal.Echoes.called (f value)).bind_calls fun value' => .pure nofun
  | .ensure holds error, value => by
    rw [Step.journaled, Step.run, Step.run]
    refine (Journal.Echoes.called (holds value)).bind_calls fun b => ?_
    cases b with
    | true =>
      exact .pure nofun
    | false =>
      exact (Journal.Echoes.called error).bind_calls fun error' => .pure nofun
  | .andThen first next, value => by
    rw [Step.journaled, Step.run_andThen, Step.run_andThen]
    exact (Step.echoes_run M first value).bind_calls fun e =>
      e.andThen_echoes (Step.echoes_run M next)
  | .mapErr step f, value => by
    rw [Step.journaled, Step.run_mapErr, Step.run_mapErr]
    exact (Step.echoes_run M step value).bind_calls fun e => e.mapErr_echoes f
  | .after before step, value => by
    rw [Step.journaled, Step.run, Step.run]
    exact (Journal.Echoes.called before).bind_calls fun _ => Step.echoes_run M step value
  | .pipeline steps, value => by
    rw [Step.journaled, Step.run, Step.run]
    exact Step.echoes_runAll M steps (.success value)

theorem Step.echoes_runAll (M : Meaning S) :
    ∀ (steps : List (Step S)) (e : Effect S),
      Echoes Effect.journaled (fun _ => Calls) (Step.runAll M steps e)
        (Step.runAll M.journaled (Step.journaledAll steps) e.journaled)
  | [], e => .pure nofun
  | step :: rest, .success value => by
    rw [Step.journaledAll, Effect.journaled, Step.runAll, Step.runAll]
    exact (Step.echoes_run M step value).bind_calls fun e => Step.echoes_runAll M rest e
  | _ :: _, .failure error => .pure nofun
  | step :: rest, .command c => by
    have hrest := Step.echoes_runAll M rest (.command (c.push (.onSuccess step)))
    rw [Effect.journaled, c.journaled_push] at hrest
    exact hrest

end

theorem Effect.pass_echoes (M : Meaning S) (e : Effect S) (links : List (Link S)) :
    Echoes Effect.journaled (fun _ => Calls) (e.pass M (.ofList links))
      (e.journaled.pass M.journaled (.ofList (links.map Link.journaled))) := by
  induction links generalizing e with
  | nil =>
    rw [List.map_nil, Effect.pass_nil, Effect.pass_nil]
    exact e.pure_echoes
  | cons l rest ih =>
    have hlink : Echoes Effect.journaled (fun _ => Calls) (e.link M l)
        (e.journaled.link M.journaled l.journaled) := by
      cases l with
      | onSuccess step =>
        exact e.andThen_echoes (Step.echoes_run M step)
      | onError f =>
        exact e.mapErr_echoes f
    rw [List.map_cons, Effect.pass_cons, Effect.pass_cons]
    exact hlink.bind_calls ih

/-! ## One command -/

namespace Command

theorem passError_echoes (c : Command S) (error : S.Error) :
    Echoes id (fun _ => Transformations) (passError error c.queue)
      (passError (S := S.journaled) error c.journaled.queue) := by
  have hqueue := passErrorAlong_echoes error c.queue.toList
  rw [← passError_ofList, ← passError_ofList, Deque.ofList_toList] at hqueue
  exact hqueue

theorem pass_echoes (M : Meaning S) (c : Command S) (e : Effect S) :
    Echoes Effect.journaled (fun _ => Calls) (e.pass M c.queue)
      (e.journaled.pass M.journaled c.journaled.queue) := by
  have hqueue := e.pass_echoes M c.queue.toList
  rw [Deque.ofList_toList] at hqueue
  exact hqueue

/-- The operation of a command writes one line, with its label and whether it has succeeded. -/
theorem operation_echoes (c : Command S) :
    Echoes id (fun answer entries => entries = [.operation c.label answer.isOk])
      c.request.operation c.journaled.request.operation :=
  fun w => ⟨[.operation c.label (c.request.operation w).1.isOk], rfl, fun _ => rfl⟩

/-- So does its continuation. -/
theorem apply_echoes (M : Meaning S) (c : Command S) (result : S.Result c.request.result) :
    Echoes (Except.map Effect.journaled)
      (fun outcome entries => entries = [.continuation c.label outcome.isOk])
      (c.request.continuation.apply M result)
      (c.journaled.request.continuation.apply M.journaled result) := by
  rcases c with ⟨label, ⟨r, operation, k⟩, queue⟩
  cases k with
  | total k =>
    exact fun _ => ⟨[.continuation label true], rfl, fun _ => rfl⟩
  | fallible k =>
    exact fun w => ⟨[.continuation label (M.tryResume k result w).1.isOk], rfl, fun _ => rfl⟩

/-- A command leaves one block of lines, with its label and the half in which it faulted. -/
theorem echoes_advance (M : Meaning S) (c : Command S) :
    Echoes Advance.journaled
      (fun a entries => ∃ b : Block, b.label = c.label ∧ b.phase = a.phase ∧ b.work = entries)
      (c.advance M) (c.journaled.advance M.journaled) := by
  unfold advance
  refine c.operation_echoes.bind fun answer entries hanswer => ?_
  subst hanswer
  cases answer with
  | error error =>
    refine (c.passError_echoes error).bind fun error' calls hcalls => .pure ?_
    rw [List.append_nil]
    exact ⟨⟨c.label, some .operation, calls, hcalls.calls, fun _ => hcalls⟩, rfl, rfl, rfl⟩
  | ok result =>
    refine (c.apply_echoes M result).bind fun outcome entries houtcome => ?_
    subst houtcome
    cases outcome with
    | error fault =>
      refine (c.passError_echoes fault).bind fun error calls hcalls => .pure ?_
      rw [List.append_nil]
      exact ⟨⟨c.label, some .continuation, calls, hcalls.calls, fun _ => hcalls⟩, rfl, rfl, rfl⟩
    | ok e =>
      refine (c.pass_echoes M e).bind fun e' calls hcalls => .pure ?_
      rw [List.append_nil]
      exact ⟨⟨c.label, none, calls, hcalls, fun h => absurd rfl h⟩, rfl, rfl, rfl⟩

end Command

end Deferred
