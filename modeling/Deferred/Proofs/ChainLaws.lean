import Deferred.Pipeline
import Deferred.Proofs.Indistinguishable

/-!
# ChainLaws — laws of chaining and of pipelines, up to observation

Steps that are chained behind a command one by one stand in its queue one by one; one step that
does the same work stands there as a single link.  No observer can tell the two apart.

* `Step.runAll_eq_foldlM` — a list of steps is folded over an effect by chaining;
* `Effect.runAll_alike_andThen` — a list of steps, and one step that does the work of the list;
* `Effect.andThen_assoc` — chaining is associative and success is its unit;
* `Pipeline.run_pushed` — a pipeline that is put together step by step;
* `Pipeline.run_eq_fold` — a pipeline is the fold of its steps, and may be cut anywhere.
-/

namespace Deferred

variable {S : Signature}

/-! ## Lists of steps -/

namespace Step

/-- The function that makes a success of a value. -/
def success : Step S := .map pure

theorem run_success (M : Meaning S) (value : S.Value) :
    (success : Step S).run M value = pure (.success value) := by
  simp [success, Step.run]

/-- The fold that stops at a failure is the one that hands the failure on. -/
theorem runAll_eq_foldlM (M : Meaning S) (steps : List (Step S)) (e : Effect S) :
    runAll M steps e = steps.foldlM (Effect.andThen M) e := by
  induction steps generalizing e with
  | nil =>
    rw [runAll, List.foldlM_nil]
  | cons step rest ih =>
    rw [List.foldlM_cons]
    cases e with
    | success value =>
      rw [runAll, Effect.andThen]
      exact bind_congr ih
    | failure error =>
      -- The steps that the fold does not look at would have been skipped one by one.
      have hskip : runAll M rest (.failure error) = pure (.failure error) := by
        cases rest <;> rfl
      rw [Effect.andThen, pure_bind, ← ih, hskip]
      rfl
    | command c =>
      rw [Effect.andThen, pure_bind, ← ih]
      rfl

theorem runAll_append (M : Meaning S) (first rest : List (Step S)) (e : Effect S) :
    runAll M (first ++ rest) e = runAll M first e >>= fun next => runAll M rest next := by
  simp only [runAll_eq_foldlM, List.foldlM_append]

/-- Folding steps over an effect is passing it through a queue of those steps. -/
theorem runAll_eq_pass (M : Meaning S) (steps : List (Step S)) (e : Effect S) :
    runAll M steps e = e.pass M (.ofList (steps.map .onSuccess)) := by
  rw [runAll_eq_foldlM]
  induction steps generalizing e with
  | nil =>
    rw [List.foldlM_nil, List.map_nil, Effect.pass_nil]
  | cons step rest ih =>
    rw [List.foldlM_cons, List.map_cons, Effect.pass_cons]
    exact bind_congr ih

end Step

/-! ## A list of steps and one step -/

theorem passErrorAlong_map_onSuccess (steps : List (Step S)) (error : S.Error) :
    passErrorAlong error (steps.map .onSuccess) = pure error := by
  induction steps with
  | nil =>
    rfl
  | cons step rest ih =>
    exact ih

/-- Steps that are queued one by one, and one step that does the work of them all. -/
theorem Interchangeable.of_runAll {M : Meaning S} {steps : List (Step S)} {step : Step S}
    (h : ∀ value, step.run M value = Step.runAll M steps (.success value)) :
    Interchangeable M (steps.map .onSuccess) [.onSuccess step] := by
  constructor
  · intro value
    rw [← Step.runAll_eq_pass, Effect.pass_singleton, Effect.link, Effect.andThen, h]
  · intro error
    -- Neither block has a link that an error could be transformed by.
    exact passErrorAlong_map_onSuccess steps error

namespace Effect

/-- A list of steps that is chained behind an effect one by one, and one step that does the work
of the list. -/
theorem runAll_alike_andThen {M : Meaning S} {steps : List (Step S)} {step : Step S}
    (h : ∀ value, step.run M value = Step.runAll M steps (.success value)) (e : Effect S) :
    Action.Alike (Indistinguishable M) (Step.runAll M steps e) (e.andThen M step) := by
  have hstep : e.andThen M step = e.pass M (.ofList [.onSuccess step]) :=
    (pass_singleton M e (.onSuccess step)).symm
  have hblock := (Rearranged.refl e).pass_block (Interchangeable.of_runAll h)
  rw [Step.runAll_eq_pass, hstep]
  exact hblock.mono fun _ _ hrearranged => hrearranged.indistinguishable

/-- Chaining is associative, and success is its unit on both sides, up to observation.

* For every effect, the two ways of chaining it with two steps call the same functions in the same
  order while they build, and no observer can tell the two effects apart: neither by their outcome
  or label, nor by resuming them any number of times with results of any type, nor by any run.
* The same holds of the effect with success chained behind it, and the effect itself.
* A success with a step chained behind it is what the step makes of its value. -/
theorem andThen_assoc (M : Meaning S) (e : Effect S) (f g : Step S) :
    Action.Alike (Indistinguishable M)
      (e.andThen M f >>= fun e' => e'.andThen M g) (e.andThen M (.andThen f g)) ∧
    Action.Alike (Indistinguishable M) (e.andThen M .success) (pure e) ∧
    ∀ value, (Effect.success value).andThen M f = f.run M value := by
  refine ⟨?_, ?_, fun _ => rfl⟩
  · have hrun : ∀ value, (Step.andThen f g).run M value =
        Step.runAll M [f, g] (.success value) := by
      intro value
      rw [Step.run_andThen, Step.runAll_eq_foldlM]
      simp [andThen]
    have halike := runAll_alike_andThen hrun e
    rw [Step.runAll_eq_foldlM] at halike
    simpa using halike
  · have hrun : ∀ value, Step.success.run M value = Step.runAll M [] (.success value) :=
      Step.run_success M
    have halike := runAll_alike_andThen hrun e
    exact halike.symm fun _ _ h => h.symm

end Effect

/-! ## Pipelines -/

namespace Pipeline

/-- Running a pipeline that steps were appended to is running the pipeline, and chaining them behind
it. -/
theorem run_foldl_push (M : Meaning S) (p : Pipeline S) (steps : List (Step S)) (start : S.Value) :
    (steps.foldl push p).run M start =
      p.run M start >>= fun e => steps.foldlM (Effect.andThen M) e := by
  have happend := Step.runAll_append M p.toList steps (.success start)
  simp only [run, toList_foldl_push, happend, Step.runAll_eq_foldlM]

/-- A pipeline that is put together from the empty one, step by step, is the fold of its steps. -/
theorem run_pushed (M : Meaning S) (steps : List (Step S)) (start : S.Value) :
    (steps.foldl push empty).run M start =
      steps.foldlM (Effect.andThen M) (.success start) := by
  have hempty : (empty : Pipeline S).run M start = pure (.success start) := rfl
  rw [run_foldl_push, hempty, pure_bind]

/-- A pipeline is the fold of its steps, and pipelines compose.  Running a pipeline is folding
chaining over its steps from the success of the start value, as one computation: it gives the same
effect and calls the same steps on the way.  And wherever the steps are cut in two, running the
whole pipeline is the same to every observer as chaining the run of the first part with a function
that runs the second part. -/
theorem run_eq_fold (M : Meaning S) (p : Pipeline S) (start : S.Value) :
    p.run M start = p.toList.foldlM (Effect.andThen M) (.success start) ∧
    ∀ n, Action.Alike (Effect.Indistinguishable M) (p.run M start)
      ((ofList (p.toList.take n)).run M start >>= fun e =>
        e.andThen M (ofList (p.toList.drop n)).toStep) := by
  constructor
  · exact Step.runAll_eq_foldlM M p.toList (.success start)
  · intro n
    have hcut : p.run M start = (ofList (p.toList.take n)).run M start >>= fun e =>
        Step.runAll M (p.toList.drop n) e := by
      rw [run, run, toList_ofList, ← Step.runAll_append, List.take_append_drop]
    have hrun : ∀ value, (ofList (p.toList.drop n)).toStep.run M value =
        Step.runAll M (p.toList.drop n) (.success value) := by
      intro value
      rw [run_toStep, run, toList_ofList]
    rw [hcut]
    refine (Action.Alike.of_eq Eq.refl rfl).bind fun e _ heq => heq ▸ ?_
    exact Effect.runAll_alike_andThen hrun e

end Pipeline

end Deferred
