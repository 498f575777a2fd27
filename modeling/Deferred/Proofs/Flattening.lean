import Deferred.Proofs.Nested
import Deferred.Proofs.Passage

/-!
# Flattening — a queue of links is a chain of nested continuations

`Effect.nested` reads a command with its queue as a command of the reference form: the links wrap
its operation and its continuation, first link innermost.  This view commutes with everything that
can be done with an effect, so an effect cannot be told from its reference form.

* `Effect.nested`, `Meaning.nested` — the reference form of effects and of the closures that
  produce them;
* `Effect.nested_link`, `Effect.nested_pass` — chaining an outcome, and settling a whole queue;
* `Command.apply_nested` — the wrapped continuation is the continuation followed by the queue;
* `Effect.nested_resume`, `runFor_nested` — feeding a result by hand, and whole runs;
* `flat_refines_nested` — the refinement for all code that builds effects.
-/

namespace Deferred

variable {S : Signature}

/-! ## The reference form of an effect -/

namespace Nested

/-- Wrap an operation for a link: a link that runs on a success leaves it alone. -/
def linkOperation {α : Type} (operation : Action S (Except S.Error α)) :
    Link S → Action S (Except S.Error α)
  | .onSuccess _ => operation
  | .onError f => mapOperation operation f

/-- Wrap a continuation for a link. -/
def Continuation.link {r : S.ResultType} (k : Continuation S r) : Link S → Continuation S r
  | .onSuccess step => k.andThen step
  | .onError f => k.mapErr f

/-- Apply a link to an effect. -/
def link (N : Meaning S) (n : Nested S) : Link S → Action S (Nested S)
  | .onSuccess step => n.andThen N step
  | .onError f => n.mapErr f

end Nested

/-- The reference form of a command: its links, first one innermost, wrapped around its operation
and its continuation. -/
def Command.nested (c : Command S) : Nested.Command S where
  label := c.label
  result := c.request.result
  operation := c.queue.toList.foldl Nested.linkOperation c.request.operation
  continuation := c.queue.toList.foldl Nested.Continuation.link (.made c.request.continuation)

/-- The reference form of an effect. -/
def Effect.nested : Effect S → Nested S
  | .success value => .success value
  | .failure error => .failure error
  | .command c => .command c.nested

/-- Closures that build the reference form of what the given ones build. -/
def Meaning.nested (M : Meaning S) : Nested.Meaning S where
  call := fun f value => Effect.nested <$> M.call f value
  resume := fun _ k result => Effect.nested <$> M.resume k result
  tryResume := fun _ k result => Except.map Effect.nested <$> M.tryResume k result

/-- Where a command leads to, in the reference form. -/
def Advance.nested : Advance S → Nested.Advance S
  | .next e => .next e.nested
  | .fault phase error => .fault phase error

namespace Command

@[simp] theorem label_nested (c : Command S) : c.nested.label = c.label := rfl

theorem nested_push_onSuccess (c : Command S) (step : Step S) :
    (c.push (.onSuccess step)).nested = c.nested.andThen step := by
  simp [nested, Nested.Command.andThen, Nested.linkOperation, Nested.Continuation.link]

theorem nested_push_onError (c : Command S) (f : S.Error → Action S S.Error) :
    (c.push (.onError f)).nested = c.nested.mapErr f := by
  simp [nested, Nested.Command.mapErr, Nested.linkOperation, Nested.Continuation.link]

end Command

/-! ## Chaining -/

namespace Effect

@[simp] theorem nested_success (value : S.Value) :
    (Effect.success value).nested = .success value := rfl

@[simp] theorem nested_failure (error : S.Error) :
    (Effect.failure error).nested = .failure error := rfl

@[simp] theorem nested_command (c : Command S) : (Effect.command c).nested = .command c.nested :=
  rfl

theorem nested_mapErr (e : Effect S) (f : S.Error → Action S S.Error) :
    e.nested.mapErr f = Effect.nested <$> e.mapErr f := by
  cases e with
  | success value =>
    simp [Nested.mapErr, mapErr]
  | failure error =>
    simp [Nested.mapErr, mapErr]
  | command c =>
    simp [Nested.mapErr, mapErr, Command.nested_push_onError]

end Effect

mutual

/-- A step that is applied to a value builds the reference form of the same effect, and acts on
the world in the same way. -/
theorem Step.nested_run (M : Meaning S) :
    ∀ (step : Step S) (value : S.Value),
      Nested.runStep M.nested step value = Effect.nested <$> step.run M value
  | .call f, value => by
    simp [Nested.runStep, Step.run, Meaning.nested]
  | .map f, value => by
    simp [Nested.runStep, Step.run]
  | .ensure holds error, value => by
    simp only [Nested.runStep, Step.run, map_bind]
    refine bind_congr fun b => ?_
    cases b <;> simp
  | .andThen first next, value => by
    simp only [Nested.runStep, Step.run, Step.nested_run M first, map_bind, bind_map_left]
    -- Only after a success is the second step applied at once; a command takes it along.
    refine bind_congr fun e => ?_
    cases e with
    | success value =>
      simpa using Step.nested_run M next value
    | failure error =>
      simp
    | command c =>
      simp [Command.nested_push_onSuccess]
  | .mapErr step f, value => by
    simp only [Nested.runStep, Step.run, Step.nested_run M step, map_bind, bind_map_left]
    exact bind_congr fun e => e.nested_mapErr f
  | .after before step, value => by
    simp [Nested.runStep, Step.run, Step.nested_run M step]
  | .pipeline steps, value => by
    simpa [Nested.runStep, Step.run] using Step.nested_runAll M steps (.success value)

/-- The same for a list of steps that an effect is chained with. -/
theorem Step.nested_runAll (M : Meaning S) :
    ∀ (steps : List (Step S)) (e : Effect S),
      Nested.runSteps M.nested steps e.nested = Effect.nested <$> Step.runAll M steps e
  | [], e => by
    simp [Nested.runSteps, Step.runAll]
  | step :: rest, .success value => by
    simp only [Effect.nested_success, Nested.runSteps, Step.runAll, Step.nested_run M step,
      map_bind, bind_map_left]
    exact bind_congr fun e => Step.nested_runAll M rest e
  | _ :: rest, .failure error => by
    -- The reference form carries a failure past the other steps, where the library stops.
    have ih := Step.nested_runAll M rest (.failure error)
    cases rest with
    | nil =>
      simp [Nested.runSteps, Step.runAll]
    | cons step rest =>
      simpa [Nested.runSteps, Step.runAll] using ih
  | step :: rest, .command c => by
    simpa [Nested.runSteps, Step.runAll, Command.nested_push_onSuccess] using
      Step.nested_runAll M rest (.command (c.push (.onSuccess step)))

end

namespace Effect

theorem nested_andThen (M : Meaning S) (e : Effect S) (step : Step S) :
    e.nested.andThen M.nested step = Effect.nested <$> e.andThen M step := by
  cases e with
  | success value =>
    exact Step.nested_run M step value
  | failure error =>
    simp [Nested.andThen, andThen]
  | command c =>
    simp [Nested.andThen, andThen, Command.nested_push_onSuccess]

theorem nested_link (M : Meaning S) (e : Effect S) (l : Link S) :
    e.nested.link M.nested l = Effect.nested <$> e.link M l := by
  cases l with
  | onSuccess step =>
    exact e.nested_andThen M step
  | onError f =>
    exact e.nested_mapErr f

/-- Passing an effect through a queue chains its reference form with the links, one by one. -/
theorem nested_pass (M : Meaning S) (e : Effect S) (links : List (Link S)) :
    links.foldlM (Nested.link M.nested) e.nested =
      Effect.nested <$> e.pass M (.ofList links) := by
  induction links generalizing e with
  | nil =>
    simp [pass_nil]
  | cons l rest ih =>
    simp only [List.foldlM_cons, nested_link, pass_cons, bind_map_left, map_bind]
    exact bind_congr fun next => ih next

end Effect

/-! ## Operations and continuations -/

namespace Nested

/-- A wrapped operation is the operation, its error passed through the wrappers. -/
theorem foldl_linkOperation {α : Type} (operation : Action S (Except S.Error α))
    (links : List (Link S)) :
    links.foldl linkOperation operation =
      operation >>= fun
        | .ok result => pure (.ok result)
        | .error error => .error <$> passErrorAlong error links := by
  induction links generalizing operation with
  | nil =>
    refine (bind_pure operation).symm.trans (bind_congr fun answer => ?_)
    cases answer <;> simp
  | cons l rest ih =>
    cases l with
    | onSuccess step =>
      simpa [linkOperation] using ih operation
    | onError f =>
      rw [List.foldl_cons, ih]
      -- The first link is the innermost wrapper, so it transforms the error before the rest does.
      simp only [linkOperation, mapOperation, bind_assoc]
      refine bind_congr fun answer => ?_
      cases answer <;> simp

namespace Continuation

theorem apply_link (N : Meaning S) {r : S.ResultType} (k : Continuation S r) (l : Link S)
    (result : S.Result r) :
    (k.link l).apply N result =
      k.apply N result >>= fun
        | .ok n => .ok <$> n.link N l
        | .error fault => .error <$> passErrorAlong fault [l] := by
  cases l with
  | onSuccess step =>
    simp only [link, apply]
    refine bind_congr fun answer => ?_
    cases answer <;> simp [Nested.link]
  | onError f =>
    simp only [link, apply]
    refine bind_congr fun answer => ?_
    cases answer <;> simp [Nested.link]

/-- A wrapped continuation is the continuation, its effect chained with the wrappers in order, its
fault passed through them. -/
theorem apply_foldl_link (N : Meaning S) {r : S.ResultType} (k : Continuation S r)
    (links : List (Link S)) (result : S.Result r) :
    (links.foldl link k).apply N result =
      k.apply N result >>= fun
        | .ok n => .ok <$> links.foldlM (Nested.link N) n
        | .error fault => .error <$> passErrorAlong fault links := by
  induction links generalizing k with
  | nil =>
    refine (bind_pure (k.apply N result)).symm.trans (bind_congr fun answer => ?_)
    cases answer <;> simp
  | cons l rest ih =>
    rw [List.foldl_cons, ih, apply_link, bind_assoc]
    refine bind_congr fun answer => ?_
    cases answer with
    | ok n =>
      simp
    | error fault =>
      -- A fault meets the first link before the others, and only if that transforms errors.
      cases l <;> simp

end Continuation

end Nested

namespace Command

/-- The operation of the reference form: the operation, its error passed through the queue. -/
theorem operation_nested (c : Command S) :
    c.nested.operation =
      c.request.operation >>= fun
        | .ok result => pure (.ok result)
        | .error error => .error <$> passError error c.queue := by
  refine (Nested.foldl_linkOperation c.request.operation c.queue.toList).trans
    (bind_congr fun answer => ?_)
  cases answer <;> rfl

/-- The continuation of the reference form: the continuation, and the queue behind it. -/
theorem apply_nested (M : Meaning S) (c : Command S) (result : S.Result c.request.result) :
    c.nested.continuation.apply M.nested result =
      c.request.continuation.apply M result >>= fun
        | .ok e => (fun next => .ok next.nested) <$> e.pass M c.queue
        | .error fault => .error <$> passError fault c.queue := by
  have hmade : (Nested.Continuation.made c.request.continuation).apply M.nested result =
      Except.map Effect.nested <$> c.request.continuation.apply M result := by
    cases h : c.request.continuation with
    | total k =>
      simp [Nested.Continuation.apply, Continuation.apply, Meaning.nested, Except.map]
    | fallible k =>
      simp [Nested.Continuation.apply, Continuation.apply, Meaning.nested]
  unfold nested
  -- The wrappers are peeled off to the link next to the continuation, which starts the queue.
  rw [Nested.Continuation.apply_foldl_link, hmade, bind_map_left]
  refine bind_congr fun answer => ?_
  cases answer with
  | ok e =>
    simp only [Except.map, e.nested_pass M, Deque.ofList_toList, Functor.map_map]
  | error fault =>
    simp [Except.map, passError]

/-- Where a command of the reference form leads to. -/
theorem advance_nested (M : Meaning S) (c : Command S) :
    Nested.advance M.nested c.nested = Advance.nested <$> c.advance M := by
  unfold Nested.advance advance
  rw [operation_nested, map_bind, bind_assoc]
  refine bind_congr fun answer => ?_
  cases answer with
  | error error =>
    simp [Advance.nested]
  | ok result =>
    simp only [pure_bind, map_bind]
    rw [apply_nested, bind_assoc]
    refine bind_congr fun outcome => ?_
    cases outcome with
    | error error =>
      simp [Advance.nested]
    | ok next =>
      simp [Advance.nested]

end Command

/-! ## Moving on -/

namespace Effect

@[simp] theorem label?_nested (e : Effect S) : e.nested.label? = e.label? := by
  cases e <;> rfl

@[simp] theorem outcome?_nested (e : Effect S) : e.nested.outcome? = e.outcome? := by
  cases e <;> rfl

/-- Feeding a result by hand leads to the reference form of the same effect, or is refused for the
same reason. -/
theorem nested_resume (M : Meaning S) (e : Effect S) (r : S.ResultType) (result : S.Result r) :
    e.nested.resume M.nested r result =
      Except.map Effect.nested <$> e.resume M r result := by
  cases e with
  | success value =>
    simp [Nested.resume, resume, Except.map]
  | failure error =>
    simp [Nested.resume, resume, Except.map]
  | command c =>
    simp only [nested_command, Nested.resume, resume, Command.resume]
    by_cases h : r = c.request.result
    · have hn : r = c.nested.result := h
      subst h
      simp only [↓reduceDIte, hn, map_bind]
      rw [Command.apply_nested, bind_assoc]
      refine bind_congr fun answer => ?_
      cases answer <;> simp [Except.map]
    · have hn : ¬ r = c.nested.result := h
      simp [h, hn, Except.map]
      rfl

end Effect

/-- A run of the reference form reports, records and ends as the run of the effect does. -/
theorem runFor_nested (I : Interpreter S) (span : Option String) (limit : Nat) (e : Effect S)
    (trace : Option Trace) :
    Nested.runFor I.meaning.nested I.observe span limit e.nested trace =
      I.runFor span limit e trace := by
  induction limit generalizing e trace with
  | zero =>
    cases e <;> rfl
  | succ limit ih =>
    cases e with
    | success value =>
      rfl
    | failure error =>
      rfl
    | command c =>
      simp only [Effect.nested_command, Nested.runFor, Interpreter.runFor, Command.label_nested,
        Command.advance_nested, bind_map_left]
      -- The same report, then the same operation; the runs can only differ in what comes next.
      refine bind_congr fun _ => bind_congr fun a => ?_
      cases a with
      | next next =>
        exact ih next (trace.map (·.push c.label))
      | fault phase error =>
        simp [Advance.nested, Function.comp_def]

/-! ## All code that builds effects -/

/-- What is built in the reference form is the reference form of what is built. -/
theorem Build.reference_nested (M : Meaning S) (b : Build S) :
    b.reference M.nested = Effect.nested <$> b.effect M := by
  induction b with
  | success value =>
    simp [reference, effect]
  | failure error =>
    simp [reference, effect]
  | deferred label r operation k =>
    simp [reference, effect, Effect.deferred, Nested.deferred, Command.nested]
  | tryDeferred label r operation k =>
    simp [reference, effect, Effect.tryDeferred, Nested.tryDeferred, Command.nested]
  | andThen b step ih =>
    simp only [reference, effect, ih, bind_map_left, map_bind]
    exact bind_congr fun e => e.nested_andThen M step
  | map b f ih =>
    simp only [reference, effect, ih, bind_map_left, map_bind]
    exact bind_congr fun e => e.nested_andThen M (.map f)
  | ensure b holds error ih =>
    simp only [reference, effect, ih, bind_map_left, map_bind]
    exact bind_congr fun e => e.nested_andThen M (.ensure holds error)
  | mapErr b f ih =>
    simp only [reference, effect, ih, bind_map_left, map_bind]
    exact bind_congr fun e => e.nested_mapErr f

/-- The same code behind the names gives closures that build reference forms. -/
theorem Bodies.reference_nested (B : Bodies S) (deeper : Meaning S) (depth : Nat) :
    B.reference deeper.nested depth = (B.meaning deeper depth).nested := by
  induction depth with
  | zero =>
    rfl
  | succ depth ih =>
    unfold reference meaning
    rw [ih]
    -- One goal for each kind of name: the code builds the same in both forms one level deeper.
    ext1
    · funext f value
      show (B.call f value >>= fun b => b.reference (B.meaning deeper depth).nested) =
        Effect.nested <$> (B.call f value >>= fun b => b.effect (B.meaning deeper depth))
      simp [Build.reference_nested]
    · funext r k result
      show (B.resume r k result >>= fun b => b.reference (B.meaning deeper depth).nested) =
        Effect.nested <$> (B.resume r k result >>= fun b => b.effect (B.meaning deeper depth))
      simp [Build.reference_nested]
    · funext r k result
      simp only [Build.reference_nested]
      simp only [Meaning.nested, map_bind]
      refine bind_congr fun answer => ?_
      cases answer <;> simp [Except.map]

/-- Effects with a queue refine effects of the reference form.

Take any code behind the names, and calls nested up to any depth.  An effect that is built from
the constructors and combinators corresponds to its reference form, built in the reference form by
the same code, and both builds act on the world alike.  Corresponding effects have the same label
and the same outcome; a result that is fed to them by hand is refused by both for the same reason,
or leads to corresponding effects again; and their runs have the same result and record.  All
equations are between computations on the world, so every operation, closure and event is called
in the same order on both sides. -/
theorem flat_refines_nested (B : Bodies S) (deeper : Meaning S) (depth : Nat) :
    (∀ b : Build S,
      b.reference (B.reference deeper.nested depth) =
        Effect.nested <$> b.effect (B.meaning deeper depth)) ∧
    (∀ e : Effect S,
      e.nested.label? = e.label? ∧
      e.nested.outcome? = e.outcome? ∧
      (∀ (r : S.ResultType) (result : S.Result r),
        e.nested.resume (B.reference deeper.nested depth) r result =
          Except.map Effect.nested <$> e.resume (B.meaning deeper depth) r result) ∧
      (∀ (observe : Event → Action S Unit) (limit : Nat),
        Nested.runRecorded (B.reference deeper.nested depth) observe limit e.nested =
          Interpreter.runRecorded ⟨B.meaning deeper depth, observe⟩ limit e)) := by
  rw [B.reference_nested deeper depth]
  refine ⟨Build.reference_nested _, fun e => ⟨e.label?_nested, e.outcome?_nested, ?_, ?_⟩⟩
  · exact e.nested_resume _
  · intro observe limit
    have hrun := runFor_nested ⟨B.meaning deeper depth, observe⟩ none limit e (some .empty)
    simp only [Nested.runRecorded, Interpreter.runRecorded, Interpreter.recording, ← hrun]

end Deferred
