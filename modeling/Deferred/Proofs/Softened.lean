import Deferred.Proofs.Handling
import Deferred.Proofs.Rehearsal

/-!
# Softened — a fault of a continuation, and a failure it returns instead

A continuation that can fault may return an error, or an effect that has failed with that error.
The two go different ways: a fault leaves through the links that transform errors and ends a run, a
failure is an effect that passes through the whole queue.  On both ways the error meets the same
links in the same order.

* `Softening`, `Meaning.soften` — some calls of continuations, and a meaning in which the errors
  that these return are failures;
* `Step.run_soften`, `Effect.pass_soften`, `Effect.resume_soften`, `Effect.handle_soften` — nothing
  that is built, linked or resumed by hand can tell;
* `Command.FaultsSoftly`, `Interpreter.EndsSoftly` — a command faults with such an error, and such
  a command ends a run;
* `Interpreter.runFor_soften_of_not`, `Interpreter.EndsSoftly.runFor` — a run can tell only by its
  fault, and only where it ends in such a command;
* `Interpreter.softened_faults` — all of this.
-/

namespace Deferred

variable {S : Signature}

/-! ## Softening -/

/-- Some calls of continuations that can fault: which call it is may depend on the name, on the
result that is handed over, and on all that has happened in the world before. -/
def Softening (S : Signature) : Type :=
  ∀ r : S.ResultType, S.TryCont r → S.Result r → S.World → Bool

/-- The same functions, except that some calls of continuations return a failure in place of an
error. -/
def Meaning.soften (M : Meaning S) (soft : Softening S) : Meaning S where
  call := M.call
  resume := M.resume
  tryResume {r} k result := fun w =>
    match M.tryResume k result w with
    | (.ok e, w₁) => (.ok e, w₁)
    | (.error error, w₁) =>
        if soft r k result w then (.ok (.failure error), w₁) else (.error error, w₁)

/-- The same interpreter for softened continuations. -/
def Interpreter.soften (I : Interpreter S) (soft : Softening S) : Interpreter S where
  meaning := I.meaning.soften soft
  observe := I.observe

variable (M : Meaning S) (soft : Softening S)

/-! ## Building -/

mutual

/-- A step calls no continuation. -/
theorem Step.run_soften :
    ∀ (step : Step S) (value : S.Value), step.run (M.soften soft) value = step.run M value
  | .call f, value => by
    rw [Step.run, Step.run]
    rfl
  | .map f, value => by
    rw [Step.run, Step.run]
  | .ensure holds error, value => by
    rw [Step.run, Step.run]
  | .andThen first next, value => by
    have hnext : ∀ e : Effect S, e.andThen (M.soften soft) next = e.andThen M next := by
      intro e
      cases e with
      | success value => exact Step.run_soften next value
      | failure error => rfl
      | command c => rfl
    rw [Step.run_andThen, Step.run_andThen, Step.run_soften first value]
    exact bind_congr hnext
  | .mapErr step f, value => by
    rw [Step.run_mapErr, Step.run_mapErr, Step.run_soften step value]
  | .after before step, value => by
    rw [Step.run, Step.run, Step.run_soften step value]
  | .pipeline steps, value => by
    rw [Step.run, Step.run]
    exact Step.runAll_soften steps (.success value)

theorem Step.runAll_soften :
    ∀ (steps : List (Step S)) (e : Effect S),
      Step.runAll (M.soften soft) steps e = Step.runAll M steps e
  | [], e => rfl
  | step :: rest, .success value => by
    rw [Step.runAll, Step.runAll, Step.run_soften step value]
    exact bind_congr (Step.runAll_soften rest)
  | _ :: _, .failure error => rfl
  | step :: rest, .command c => Step.runAll_soften rest (.command (c.push (.onSuccess step)))

end

namespace Effect

theorem andThen_soften (e : Effect S) (step : Step S) :
    e.andThen (M.soften soft) step = e.andThen M step := by
  cases e with
  | success value => exact Step.run_soften M soft step value
  | failure error => rfl
  | command c => rfl

theorem link_soften (e : Effect S) (l : Link S) :
    e.link (M.soften soft) l = e.link M l := by
  cases l with
  | onSuccess step => exact e.andThen_soften M soft step
  | onError f => rfl

theorem pass_soften (e : Effect S) (links : List (Link S)) :
    e.pass (M.soften soft) (.ofList links) = e.pass M (.ofList links) := by
  induction links generalizing e with
  | nil =>
    rw [pass_nil, pass_nil]
  | cons l rest ih =>
    rw [pass_cons, pass_cons, link_soften]
    exact bind_congr ih

/-- The same for the queue of a command. -/
theorem pass_queue_soften (e : Effect S) (queue : Deque (Link S)) :
    e.pass (M.soften soft) queue = e.pass M queue := by
  rw [← Deque.ofList_toList queue]
  exact e.pass_soften M soft queue.toList

end Effect

/-! ## Continuations -/

/-- A call of a continuation is one of those whose errors become failures. -/
def Continuation.softens {r : S.ResultType} :
    Continuation S r → S.Result r → S.World → Bool
  | .total _, _, _ => false
  | .fallible k, result, w => soft r k result w

/-- The continuation is called as before, and only an error that it returns may be another. -/
theorem Continuation.apply_soften {r : S.ResultType} (k : Continuation S r) (result : S.Result r)
    (w : S.World) :
    k.apply (M.soften soft) result w =
      match k.apply M result w with
      | (.ok e, w₁) => (.ok e, w₁)
      | (.error error, w₁) =>
          if k.softens soft result w then (.ok (.failure error), w₁) else (.error error, w₁) := by
  cases k with
  | total k => rfl
  | fallible k => rfl

section

variable {M soft} {c : Command S} {result : S.Result c.request.result} {w w₁ : S.World}

theorem Continuation.apply_soften_of_ok {e : Effect S}
    (happly : c.request.continuation.apply M result w = (.ok e, w₁)) :
    c.request.continuation.apply (M.soften soft) result w = (.ok e, w₁) := by
  rw [Continuation.apply_soften, happly]

theorem Continuation.apply_soften_of_error {error : S.Error}
    (happly : c.request.continuation.apply M result w = (.error error, w₁))
    (hsoft : c.request.continuation.softens soft result w = true) :
    c.request.continuation.apply (M.soften soft) result w = (.ok (.failure error), w₁) := by
  rw [Continuation.apply_soften, happly]
  exact if_pos hsoft

theorem Continuation.apply_soften_of_fault {error : S.Error}
    (happly : c.request.continuation.apply M result w = (.error error, w₁))
    (hsoft : ¬ c.request.continuation.softens soft result w = true) :
    c.request.continuation.apply (M.soften soft) result w = (.error error, w₁) := by
  rw [Continuation.apply_soften, happly]
  exact if_neg hsoft

end

/-! ## Resuming -/

/-- A failure passes through a queue like a fault: the links that transform errors are all that
either of them meets. -/
theorem Effect.pass_failure_soften (error : S.Error) (queue : Deque (Link S)) (w : S.World) :
    (Effect.failure error).pass (M.soften soft) queue w =
      (.failure (passError error queue w).1, (passError error queue w).2) := by
  rw [Effect.pass_failure]
  rfl

theorem Command.resume_soften (c : Command S) (r : S.ResultType) (result : S.Result r) :
    c.resume (M.soften soft) r result = c.resume M r result := by
  by_cases hr : r = c.request.result
  · subst hr
    funext w
    rcases happly : c.request.continuation.apply M result w with ⟨outcome, w₁⟩
    cases outcome with
    | ok e =>
      have hsame : c.request.continuation.apply (M.soften soft) result w = (.ok e, w₁) :=
        Continuation.apply_soften_of_ok happly
      rw [resume_of_ok hsame, resume_of_ok happly, Effect.pass_queue_soften]
    | error error =>
      -- A failure takes the way of an effect here, and the fault that of an error.
      by_cases hsoft : c.request.continuation.softens soft result w = true
      · have hfailure := Continuation.apply_soften_of_error happly hsoft
        rw [resume_of_ok hfailure, resume_of_error happly, Effect.pass_failure_soften]
      · have hfault := Continuation.apply_soften_of_fault happly hsoft
        rw [resume_of_error hfault, resume_of_error happly]
  · unfold Command.resume
    rw [dif_neg hr, dif_neg hr]

namespace Effect

theorem resume_soften (e : Effect S) (r : S.ResultType) (result : S.Result r) :
    e.resume (M.soften soft) r result = e.resume M r result := by
  cases e with
  | success value => rfl
  | failure error => rfl
  | command c => exact c.resume_soften M soft r result

variable [BEq S.Value] [BEq S.Error]

theorem act_soften (e : Effect S) (h : Handling S) :
    h.act (M.soften soft) e = h.act M e := by
  cases h with
  | andThen step =>
    rw [Handling.act, Handling.act, andThen_soften]
  | map f =>
    rw [Handling.act, Handling.act, map, map, andThen_soften]
  | ensure holds error =>
    rw [Handling.act, Handling.act, ensure, ensure, andThen_soften]
  | mapErr f => rfl
  | pipeline rest =>
    rw [Handling.act, Handling.act, Step.runAll_soften]
  | equals other => rfl
  | label => rfl
  | shown value error => rfl
  | outcome => rfl
  | resume r result =>
    rw [Handling.act, Handling.act, resume_soften]

/-- No sequence of handlings can tell. -/
theorem handle_soften (hs : List (Handling S)) (e : Effect S) :
    e.handle (M.soften soft) hs = e.handle M hs := by
  induction hs generalizing e with
  | nil => rfl
  | cons h rest ih =>
    rw [handle, handle, act_soften]
    simp only [ih]

end Effect

/-! ## One command -/

namespace Command

/-- The operation of a command succeeds, and its continuation returns one of the errors that become
failures. -/
def FaultsSoftly (c : Command S) (w : S.World) : Prop :=
  ∃ result w₁ error w₂, c.request.operation w = (.ok result, w₁) ∧
    c.request.continuation.apply M result w₁ = (.error error, w₂) ∧
    c.request.continuation.softens soft result w₁ = true

variable {M soft}

theorem FaultsSoftly.advance {c : Command S} {w : S.World} (h : c.FaultsSoftly M soft w) :
    ∃ error w₁, c.advance M w = (.fault .continuation error, w₁) ∧
      c.advance (M.soften soft) w = (.next (.failure error), w₁) := by
  rcases h with ⟨result, w₁, error, w₂, hanswer, happly, hsoft⟩
  have hfailure := Continuation.apply_soften_of_error happly hsoft
  refine ⟨_, _, advance_of_error hanswer happly, ?_⟩
  rw [advance_of_ok hanswer hfailure, Effect.pass_failure_soften]

theorem advance_soften_of_not {c : Command S} {w : S.World} (h : ¬ c.FaultsSoftly M soft w) :
    c.advance (M.soften soft) w = c.advance M w := by
  rcases hanswer : c.request.operation w with ⟨answer, w₁⟩
  cases answer with
  | error error =>
    rw [advance_of_refusal hanswer, advance_of_refusal hanswer]
  | ok result =>
    rcases happly : c.request.continuation.apply M result w₁ with ⟨outcome, w₂⟩
    cases outcome with
    | ok e =>
      have hsame : c.request.continuation.apply (M.soften soft) result w₁ = (.ok e, w₂) :=
        Continuation.apply_soften_of_ok happly
      rw [advance_of_ok hanswer hsame, advance_of_ok hanswer happly, Effect.pass_queue_soften]
    | error error =>
      have hhard : ¬ c.request.continuation.softens soft result w₁ = true :=
        fun hsoft => h ⟨result, w₁, error, w₂, hanswer, happly, hsoft⟩
      have hfault := Continuation.apply_soften_of_fault happly hhard
      rw [advance_of_error hanswer hfault, advance_of_error hanswer happly]

end Command

/-! ## Runs -/

namespace Interpreter

variable (I : Interpreter S) {soft} {span : Option String}

/-- A run that may invoke so many operations ends in a command that faults with one of the errors
that become failures. -/
inductive EndsSoftly (soft : Softening S) (span : Option String) :
    Nat → Effect S → S.World → Prop where
  | here {limit : Nat} {c : Command S} {w : S.World}
      (h : c.FaultsSoftly I.meaning soft (I.announce span c w)) :
      EndsSoftly soft span (limit + 1) (.command c) w
  | next {limit : Nat} {c : Command S} {e : Effect S} {w w₁ : S.World}
      (advanced : c.advance I.meaning (I.announce span c w) = (.next e, w₁))
      (rest : EndsSoftly soft span limit e w₁) :
      EndsSoftly soft span (limit + 1) (.command c) w

variable {I}

/-- A run that does not end in such a command is the same run. -/
theorem runFor_soften_of_not {limit : Nat} {e : Effect S} {w : S.World}
    (h : ¬ I.EndsSoftly soft span limit e w) (trace : Option Trace) :
    (I.soften soft).runFor span limit e trace w = I.runFor span limit e trace w := by
  induction limit generalizing e w trace with
  | zero =>
    cases e <;> rfl
  | succ limit ih =>
    cases e with
    | success value => rfl
    | failure error => rfl
    | command c =>
      have hadvance : c.advance (I.soften soft).meaning ((I.soften soft).announce span c w) =
          c.advance I.meaning (I.announce span c w) :=
        Command.advance_soften_of_not fun hfaults => h (.here hfaults)
      rcases hc : c.advance I.meaning (I.announce span c w) with ⟨a, w₁⟩
      cases a with
      | next e =>
        rw [runFor_of_next (hadvance.trans hc), runFor_of_next hc]
        exact ih (fun hrest => h (.next hc hrest)) _
      | fault phase error =>
        rw [runFor_of_fault (hadvance.trans hc), runFor_of_fault hc]
        rfl

/-- A run that ends in such a command comes to the same error, after the same operations and in the
same world.  Only the fault is neither recorded nor reported. -/
theorem EndsSoftly.runFor {limit : Nat} {e : Effect S} {w : S.World}
    (h : I.EndsSoftly soft span limit e w) :
    ∃ error label u w₁, u.fault = none ∧ ∀ trace : Option Trace,
      I.runFor span limit e trace w =
        (some ⟨.error error, trace.map fun t =>
          (t ++ (u ++ .invoked label)).faultedAt ⟨label, .continuation⟩⟩,
          (I.observe ⟨span, .faulted label .continuation⟩ w₁).2) ∧
      (I.soften soft).runFor span limit e trace w =
        (some ⟨.error error, trace.map fun t => t ++ (u ++ .invoked label)⟩, w₁) := by
  induction h with
  | @here limit c w h =>
    -- The other run goes on with a failure, which is its end, so it takes no further operation.
    rcases h.advance with ⟨error, w₁, hfault, hfailure⟩
    refine ⟨error, c.label, .empty, w₁, rfl, fun trace => ⟨?_, ?_⟩⟩
    · rw [runFor_of_fault hfault]
      simp only [Trace.push_eq_append, Trace.empty_append]
    · have hnext : c.advance (I.soften soft).meaning ((I.soften soft).announce span c w) =
          (.next (.failure error), w₁) := hfailure
      rw [runFor_of_next hnext, runFor_failure]
      simp only [Trace.push_eq_append, Trace.empty_append]
  | @next limit c e w w₁ advanced rest ih =>
    rcases ih with ⟨error, label, u, w₂, hu, hrest⟩
    -- The command leads on, so it is not one of those that fault softly.
    have hnot : ¬ c.FaultsSoftly I.meaning soft (I.announce span c w) := by
      intro hfaults
      rcases hfaults.advance with ⟨error', w₃, hfault, -⟩
      cases advanced.symm.trans hfault
    have hnext : c.advance (I.soften soft).meaning ((I.soften soft).announce span c w) =
        (.next e, w₁) := (Command.advance_soften_of_not hnot).trans advanced
    have hlabels : ∀ t : Trace, t.push c.label ++ (u ++ .invoked label) =
        t ++ (.invoked c.label ++ u ++ .invoked label) := by
      intro t
      rw [Trace.push_eq_append, Trace.append_assoc, Trace.append_assoc]
    refine ⟨error, label, .invoked c.label ++ u, w₂, ?_, fun trace => ⟨?_, ?_⟩⟩
    · rw [Trace.fault_append, hu]
      rfl
    · rw [runFor_of_next advanced, (hrest _).1, Option.map_map]
      simp only [Function.comp_def, hlabels]
    · rw [runFor_of_next hnext, (hrest _).2, Option.map_map]
      simp only [Function.comp_def, hlabels]

/-- Continuations that fault may return failures with the same errors, in any of their calls.

Whatever is built, linked, looked at or resumed by hand comes out the same, and so does the world,
which may keep a journal of every call.  A result that is fed by hand turns either into one failure,
with the error as the links behind it have transformed it.  A run differs only if it ends in one of
these faults: its result, the operations it has invoked and the world are the same, but no fault is
recorded, and none is reported. -/
theorem softened_faults [BEq S.Value] [BEq S.Error] (I : Interpreter S) (soft : Softening S) :
    (∀ (step : Step S) (value : S.Value),
      step.run (I.soften soft).meaning value = step.run I.meaning value) ∧
    (∀ (e : Effect S) (queue : Deque (Link S)),
      e.pass (I.soften soft).meaning queue = e.pass I.meaning queue) ∧
    (∀ (e : Effect S) (r : S.ResultType) (result : S.Result r),
      e.resume (I.soften soft).meaning r result = e.resume I.meaning r result) ∧
    (∀ (c : Command S) (result : S.Result c.request.result) (error : S.Error) (w w₁ : S.World),
      c.request.continuation.apply I.meaning result w = (.error error, w₁) →
      (Effect.command c).resume I.meaning c.request.result result w =
        (.ok (.failure (passError error c.queue w₁).1), (passError error c.queue w₁).2)) ∧
    (∀ (hs : List (Handling S)) (e : Effect S),
      e.handle (I.soften soft).meaning hs = e.handle I.meaning hs) ∧
    (∀ (span : Option String) (limit : Nat) (e : Effect S) (w : S.World),
      ¬ I.EndsSoftly soft span limit e w →
      ∀ trace, (I.soften soft).runFor span limit e trace w = I.runFor span limit e trace w) ∧
    (∀ (span : Option String) (limit : Nat) (e : Effect S) (w : S.World),
      I.EndsSoftly soft span limit e w →
      ∃ error label u w₁, u.fault = none ∧ ∀ trace : Option Trace,
        I.runFor span limit e trace w =
          (some ⟨.error error, trace.map fun t =>
            (t ++ (u ++ .invoked label)).faultedAt ⟨label, .continuation⟩⟩,
            (I.observe ⟨span, .faulted label .continuation⟩ w₁).2) ∧
        (I.soften soft).runFor span limit e trace w =
          (some ⟨.error error, trace.map fun t => t ++ (u ++ .invoked label)⟩, w₁)) ∧
    ∀ (limit : Nat) (e : Effect S) (w : S.World), I.EndsSoftly soft none limit e w →
      ∃ error label t w₁, t.fault = none ∧
        I.runRecorded limit e w =
          (some (.error error, t.faultedAt ⟨label, .continuation⟩),
            (I.observe ⟨none, .faulted label .continuation⟩ w₁).2) ∧
        (I.soften soft).runRecorded limit e w = (some (.error error, t), w₁) := by
  refine ⟨Step.run_soften I.meaning soft, fun e => e.pass_queue_soften I.meaning soft,
    fun e => e.resume_soften I.meaning soft,
    fun _ _ _ _ _ happly => Command.resume_of_error happly, Effect.handle_soften I.meaning soft,
    fun _ _ _ _ hnot => runFor_soften_of_not hnot, fun _ _ _ _ hends => hends.runFor, ?_⟩
  intro limit e w hends
  rcases hends.runFor with ⟨error, label, u, w₁, hu, hrun⟩
  refine ⟨error, label, u ++ .invoked label, w₁, ?_, ?_, ?_⟩
  · rw [Trace.fault_append, hu]
    rfl
  · simp [runRecorded, recording, (hrun (some .empty)).1]
  · simp [runRecorded, recording, (hrun (some .empty)).2]

open Diary in
/-- A zero is answered with a fault, which is recorded and reported, or with a failure, which ends
the run at the same place and is neither. -/
theorem softened_faults_twice :
    let soft : Softening signature := fun _ _ _ _ => true
    interpreter.EndsSoftly soft none 2 (twice 0) [] ∧
      interpreter.runRecorded 2 (twice 0) [] =
        (some (.error (0 : Nat), ⟨#[first], some ⟨first, .continuation⟩⟩),
          entry first ++ [.reported (.faulted first .continuation)]) ∧
      (interpreter.soften soft).runRecorded 2 (twice 0) [] =
        (some (.error (0 : Nat), ⟨#[first], none⟩), entry first) := by
  intro soft
  have _ : BEq signature.Value := inferInstanceAs (BEq Nat)
  have _ : BEq signature.Error := inferInstanceAs (BEq Nat)
  have hends : interpreter.EndsSoftly soft none 2 (twice 0) [] :=
    .here ⟨(0 : Nat), _, (0 : Nat), _, rfl, rfl, rfl⟩
  have hplain : interpreter.runRecorded 2 (twice 0) [] =
      (some (.error (0 : Nat), ⟨#[first], some ⟨first, .continuation⟩⟩),
        entry first ++ [.reported (.faulted first .continuation)]) :=
    (Run.fault (advance_ask_zero first _ _)).runRecorded_of_le (Nat.le_succ 1)
  rcases (softened_faults interpreter soft).2.2.2.2.2.2.2 2 (twice 0) [] hends with
    ⟨error, label, ⟨executed, _⟩, diary, rfl, hfaulted, hsoftened⟩
  have hsame := hplain.symm.trans hfaulted
  have hrecord := congrArg Prod.fst hsame
  cases hrecord
  have hdiary : entry first ++ [.reported (.faulted first .continuation)] =
      diary ++ [.reported (.faulted first .continuation)] := congrArg Prod.snd hsame
  have hdiary : entry first = diary := List.append_cancel_right hdiary
  subst hdiary
  exact ⟨hends, hplain, hsoftened⟩

end Interpreter

end Deferred
