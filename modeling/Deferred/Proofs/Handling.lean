import Deferred.Pipeline
import Deferred.Proofs.Indistinguishable
import Mathlib.Data.List.Forall2

/-!
# Handling — what is done with an effect short of a run

An effect may be chained, put into a pipeline, compared, looked at, and fed results by hand.  None
of this depends on what the operations of its commands are: if some of them are exchanged, also
those of commands that are only built on the way, then everything that is found out about the
effect stays the same, and so does everything that is called.

* `Effect.UpToOperations`, `Meaning.UpToOperations` — the same effects and the same names with
  other operations;
* `Handling`, `Answer` — one thing that is done with an effect, and what is found out by it;
* `Effect.handle` — handlings, one after the other;
* `Step.upToOperations_run`, `Effect.UpToOperations.pass` — no step and no queue can tell;
* `Effect.UpToOperations.handle` — no sequence of handlings can tell.
-/

namespace Deferred

variable {S : Signature}

/-! ## Other operations -/

/-- Both fault with the same error, or neither does and the values are related. -/
inductive OrFault {ε α β : Type} (R : α → β → Prop) : Except ε α → Except ε β → Prop where
  | fault (error : ε) : OrFault R (.error error) (.error error)
  | value {a : α} {b : β} (h : R a b) : OrFault R (.ok a) (.ok b)

/-- Two effects that are one, except that their commands may have different operations for results
of the same type. -/
inductive Effect.UpToOperations : Effect S → Effect S → Prop where
  | success (value : S.Value) : UpToOperations (.success value) (.success value)
  | failure (error : S.Error) : UpToOperations (.failure error) (.failure error)
  | command (label : Label) {r : S.ResultType}
      (operation operation' : Action S (Except S.Error (S.Result r)))
      (k : Continuation S r) (queue : Deque (Link S)) :
      UpToOperations (.command ⟨label, ⟨r, operation, k⟩, queue⟩)
        (.command ⟨label, ⟨r, operation', k⟩, queue⟩)

/-- Two meanings of the same names that call the same functions, and whose effects may have
different operations. -/
structure Meaning.UpToOperations (M M' : Meaning S) : Prop where
  call : ∀ f value, Action.Alike Effect.UpToOperations (M.call f value) (M'.call f value)
  resume : ∀ {r : S.ResultType} (k : S.Cont r) (result : S.Result r),
    Action.Alike Effect.UpToOperations (M.resume k result) (M'.resume k result)
  tryResume : ∀ {r : S.ResultType} (k : S.TryCont r) (result : S.Result r),
    Action.Alike (OrFault Effect.UpToOperations) (M.tryResume k result) (M'.tryResume k result)

/-! ## Handlings -/

/-- One thing that can be done with an effect without running it.

* `andThen`, `map`, `ensure`, `mapErr` — chain it;
* `pipeline` — let it be what a step of a pipeline has returned, with the steps that are left;
* `equals`, `label`, `shown`, `outcome` — compare it, or look at it;
* `resume` — feed it a result by hand. -/
inductive Handling (S : Signature) where
  | andThen (step : Step S)
  | map (f : S.Value → Action S S.Value)
  | ensure (holds : S.Value → Action S Bool) (error : Action S S.Error)
  | mapErr (f : S.Error → Action S S.Error)
  | pipeline (rest : List (Step S))
  | equals (other : Effect S)
  | label
  | shown (value : S.Value → Shown) (error : S.Error → Shown)
  | outcome
  | resume (r : S.ResultType) (result : S.Result r)

/-- What is found out by a handling: nothing if it only makes another effect. -/
inductive Answer (Value Error : Type) where
  | none
  | equal (b : Bool)
  | label (label? : Option Label)
  | shown (s : Shown)
  | outcome (outcome? : Option (Except Error Value))
  | refused (reason : ResumeError)

/-- The same handling; the effects that are compared with may have different operations. -/
inductive Handling.UpToOperations : Handling S → Handling S → Prop where
  | same (h : Handling S) : UpToOperations h h
  | equals {a b : Effect S} (h : a.UpToOperations b) : UpToOperations (.equals a) (.equals b)

section

variable [BEq S.Value] [BEq S.Error]

/-- Do one thing with an effect.  An effect that was looked at, or that has refused a result, is
as it was before. -/
def Handling.act (M : Meaning S) (e : Effect S) :
    Handling S → Action S (Answer S.Value S.Error × Effect S)
  | .andThen step => return (.none, ← e.andThen M step)
  | .map f => return (.none, ← e.map M f)
  | .ensure holds error => return (.none, ← e.ensure M holds error)
  | .mapErr f => return (.none, ← e.mapErr f)
  | .pipeline rest => return (.none, ← Step.runAll M rest e)
  | .equals other => return (.equal (e == other), e)
  | .label => return (.label e.label?, e)
  | .shown value error => return (.shown (e.shown value error), e)
  | .outcome => return (.outcome e.outcome?, e)
  | .resume r result => do
      match ← e.resume M r result with
      | .ok next => return (.none, next)
      | .error reason => return (.refused reason, e)

/-- Do things with an effect in order: all answers, and the effect that comes of it. -/
def Effect.handle (M : Meaning S) :
    List (Handling S) → Effect S → Action S (List (Answer S.Value S.Error) × Effect S)
  | [], e => return ([], e)
  | h :: rest, e => do
      let (answer, next) ← h.act M e
      let (answers, last) ← handle M rest next
      return (answer :: answers, last)

end

/-! ## Chaining -/

namespace Effect.UpToOperations

variable {a b : Effect S}

theorem refl (e : Effect S) : e.UpToOperations e := by
  cases e with
  | success value =>
    exact .success value
  | failure error =>
    exact .failure error
  | command c =>
    exact .command c.label c.request.operation c.request.operation c.request.continuation c.queue

theorem outcome?_eq (h : a.UpToOperations b) : a.outcome? = b.outcome? := by
  cases h <;> rfl

theorem label?_eq (h : a.UpToOperations b) : a.label? = b.label? := by
  cases h <;> rfl

theorem shown_eq (h : a.UpToOperations b) (value : S.Value → Shown) (error : S.Error → Shown) :
    a.shown value error = b.shown value error := by
  cases h <;> rfl

theorem beq_eq [BEq S.Value] [BEq S.Error] {a' b' : Effect S} (h : a.UpToOperations b)
    (h' : a'.UpToOperations b') : (a == a') = (b == b') := by
  cases h <;> cases h' <;> rfl

theorem mapErr (h : a.UpToOperations b) (f : S.Error → Action S S.Error) :
    Action.Alike UpToOperations (a.mapErr f) (b.mapErr f) := by
  cases h with
  | success value =>
    exact .pure (.success value)
  | failure error =>
    exact .of_eq refl rfl
  | command label operation operation' k queue =>
    exact .pure (.command label operation operation' k (queue.pushBack (.onError f)))

theorem andThen {M M' : Meaning S} (h : a.UpToOperations b) {step : Step S}
    (hrun : ∀ value, Action.Alike UpToOperations (step.run M value) (step.run M' value)) :
    Action.Alike UpToOperations (a.andThen M step) (b.andThen M' step) := by
  cases h with
  | success value =>
    exact hrun value
  | failure error =>
    exact .pure (.failure error)
  | command label operation operation' k queue =>
    exact .pure (.command label operation operation' k (queue.pushBack (.onSuccess step)))

end Effect.UpToOperations

section

variable {M M' : Meaning S}

mutual

/-- A step does not see the operations of the effects that it puts together. -/
theorem Step.upToOperations_run (hM : M.UpToOperations M') :
    ∀ (step : Step S) (value : S.Value),
      Action.Alike Effect.UpToOperations (step.run M value) (step.run M' value)
  | .call f, value => by
    rw [Step.run, Step.run]
    exact hM.call f value
  | .map f, value => by
    rw [Step.run, Step.run]
    exact .of_eq Effect.UpToOperations.refl rfl
  | .ensure holds error, value => by
    rw [Step.run, Step.run]
    exact .of_eq Effect.UpToOperations.refl rfl
  | .andThen first next, value => by
    rw [Step.run_andThen, Step.run_andThen]
    have hnext := Step.upToOperations_run hM next
    exact (Step.upToOperations_run hM first value).bind fun _ _ h => h.andThen hnext
  | .mapErr step f, value => by
    rw [Step.run_mapErr, Step.run_mapErr]
    exact (Step.upToOperations_run hM step value).bind fun _ _ h => h.mapErr f
  | .after before step, value => by
    rw [Step.run, Step.run]
    have hbefore : Action.Alike Eq before before := .of_eq Eq.refl rfl
    exact hbefore.bind fun _ _ _ => Step.upToOperations_run hM step value
  | .pipeline steps, value => by
    rw [Step.run, Step.run]
    exact Step.upToOperations_runAll hM steps (.success value)

theorem Step.upToOperations_runAll (hM : M.UpToOperations M') :
    ∀ (steps : List (Step S)) {a b : Effect S}, a.UpToOperations b →
      Action.Alike Effect.UpToOperations (Step.runAll M steps a) (Step.runAll M' steps b)
  | [], _, _, h => .pure h
  | step :: rest, _, _, .success value => by
    rw [Step.runAll, Step.runAll]
    exact (Step.upToOperations_run hM step value).bind fun _ _ h =>
      Step.upToOperations_runAll hM rest h
  | _ :: _, _, _, .failure error => .pure (.failure error)
  | step :: rest, _, _, .command label operation operation' k queue =>
    Step.upToOperations_runAll hM rest
      (.command label operation operation' k (queue.pushBack (.onSuccess step)))

end

namespace Effect.UpToOperations

variable {a b : Effect S}

theorem link (hM : M.UpToOperations M') (h : a.UpToOperations b) (l : Link S) :
    Action.Alike UpToOperations (a.link M l) (b.link M' l) := by
  cases l with
  | onSuccess step =>
    exact h.andThen (Step.upToOperations_run hM step)
  | onError f =>
    exact h.mapErr f

theorem pass (hM : M.UpToOperations M') (h : a.UpToOperations b) (links : List (Link S)) :
    Action.Alike UpToOperations (a.pass M (.ofList links)) (b.pass M' (.ofList links)) := by
  induction links generalizing a b with
  | nil =>
    rw [pass_nil, pass_nil]
    exact .pure h
  | cons l rest ih =>
    rw [pass_cons, pass_cons]
    exact (h.link hM l).bind fun _ _ hnext => ih hnext

end Effect.UpToOperations

/-! ## Resuming -/

theorem Continuation.upToOperations_apply (hM : M.UpToOperations M') {r : S.ResultType}
    (k : Continuation S r) (result : S.Result r) :
    Action.Alike (OrFault Effect.UpToOperations) (k.apply M result) (k.apply M' result) := by
  cases k with
  | total k =>
    exact (hM.resume k result).map fun _ _ h => .value h
  | fallible k =>
    exact hM.tryResume k result

/-- Only the operation of a command is passed over when it is resumed, so both commands call the
same continuation and work off the same queue, or refuse the result for the same reason. -/
theorem Effect.UpToOperations.resume (hM : M.UpToOperations M') {a b : Effect S}
    (h : a.UpToOperations b) (r : S.ResultType) (result : S.Result r) :
    Action.Alike (OrFault Effect.UpToOperations) (a.resume M r result)
      (b.resume M' r result) := by
  cases h with
  | success value =>
    exact .pure (.fault _)
  | failure error =>
    exact .pure (.fault _)
  | @command label r' operation operation' k queue =>
    show Action.Alike _ (Command.resume M ⟨label, ⟨r', operation, k⟩, queue⟩ r result)
      (Command.resume M' ⟨label, ⟨r', operation', k⟩, queue⟩ r result)
    unfold Command.resume
    -- Both requests are for results of one type, so both refuse the result or neither does.
    by_cases hr : r = r'
    · subst hr
      simp only [↓reduceDIte]
      refine (Continuation.upToOperations_apply hM k result).bind fun _ _ happly => ?_
      cases happly with
      | fault error =>
        have herror : Action.Alike Eq (passError error queue) (passError error queue) :=
          .of_eq Eq.refl rfl
        refine herror.bind fun _ _ heq => ?_
        exact heq ▸ .pure (.value (.failure _))
      | value hnext =>
        have hpass := hnext.pass hM queue.toList
        rw [Deque.ofList_toList] at hpass
        exact hpass.map fun _ _ hlast => .value hlast
    · simp only [hr, ↓reduceDIte]
      exact .pure (.fault _)

/-! ## Sequences -/

section

variable [BEq S.Value] [BEq S.Error]

/-- The same was found out, and the effects are the same up to their operations. -/
def Effect.SameAnswers {α : Type} (x y : α × Effect S) : Prop :=
  x.1 = y.1 ∧ x.2.UpToOperations y.2

theorem Handling.UpToOperations.act (hM : M.UpToOperations M') {h h' : Handling S}
    (hh : h.UpToOperations h') {a b : Effect S} (hab : a.UpToOperations b) :
    Action.Alike Effect.SameAnswers (h.act M a) (h'.act M' b) := by
  cases hh with
  | equals hother =>
    exact .pure ⟨congrArg Answer.equal (hab.beq_eq hother), hab⟩
  | same h =>
    cases h with
    | andThen step =>
      exact (hab.andThen (Step.upToOperations_run hM step)).map fun _ _ hnext => ⟨rfl, hnext⟩
    | map f =>
      exact (hab.andThen (Step.upToOperations_run hM (.map f))).map fun _ _ hnext => ⟨rfl, hnext⟩
    | ensure holds error =>
      have hrun := Step.upToOperations_run hM (.ensure holds error)
      exact (hab.andThen hrun).map fun _ _ hnext => ⟨rfl, hnext⟩
    | mapErr f =>
      exact (hab.mapErr f).map fun _ _ hnext => ⟨rfl, hnext⟩
    | pipeline rest =>
      exact (Step.upToOperations_runAll hM rest hab).map fun _ _ hnext => ⟨rfl, hnext⟩
    | equals other =>
      exact .pure ⟨congrArg Answer.equal (hab.beq_eq (.refl other)), hab⟩
    | label =>
      exact .pure ⟨congrArg Answer.label hab.label?_eq, hab⟩
    | shown value error =>
      exact .pure ⟨congrArg Answer.shown (hab.shown_eq value error), hab⟩
    | outcome =>
      exact .pure ⟨congrArg Answer.outcome hab.outcome?_eq, hab⟩
    | resume r result =>
      refine (hab.resume hM r result).bind fun _ _ hanswer => ?_
      cases hanswer with
      | fault reason =>
        exact .pure ⟨rfl, hab⟩
      | value hnext =>
        exact .pure ⟨rfl, hnext⟩

/-- No sequence of handlings can tell effects apart that differ in their operations only. -/
theorem Effect.UpToOperations.handle (hM : M.UpToOperations M') {hs hs' : List (Handling S)}
    (hhs : List.Forall₂ Handling.UpToOperations hs hs') {a b : Effect S}
    (hab : a.UpToOperations b) :
    Action.Alike Effect.SameAnswers (a.handle M hs) (b.handle M' hs') := by
  induction hhs generalizing a b with
  | nil =>
    exact .pure ⟨rfl, hab⟩
  | cons hh _ ih =>
    -- The rest is done with effects that are related again, in one and the same world.
    refine (hh.act hM hab).bind fun _ _ hfirst => ?_
    refine (ih hfirst.2).bind fun _ _ hrest => ?_
    exact .pure ⟨congrArg₂ List.cons hfirst.1 hrest.1, hrest.2⟩

end

end

end Deferred
