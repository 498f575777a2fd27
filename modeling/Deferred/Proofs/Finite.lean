import Deferred.Proofs.Blocks
import Deferred.Proofs.ChainLaws
import Deferred.Proofs.Rehearsal

/-!
# Finite — flows that come to an end whatever their operations answer

A link may return a command with a longer queue than the one it was taken from, so no number that
could be read off an effect gets smaller from one command of a run to the next.  What does get
smaller is the effect itself: what comes of a result is finite before the command is.

* `Effect.Finite` — effects with no infinite walk by hand;
* `Effect.Finite.link` — links that return finite effects keep effects finite;
* `Effect.Finite.run` — a run of a finite effect ends;
* `Effect.passWithin` — the loop over a queue, cut off after a number of rounds;
* `Effect.finite_closed_and_ends` — all of it, with the number of operations that a run takes.
-/

namespace Deferred

variable {S : Signature}

/-! ## Finite effects -/

/-- An outcome is finite, and so is a command if every result of its type, supplied by hand in any
world, leads to a finite effect. -/
inductive Effect.Finite (M : Meaning S) : Effect S → Prop where
  | success (value : S.Value) : Finite M (.success value)
  | failure (error : S.Error) : Finite M (.failure error)
  | command (c : Command S)
      (results : ∀ (result : S.Result c.request.result) (w : S.World) (e : Effect S),
        (c.resume M c.request.result result w).1 = .ok e → Finite M e) :
      Finite M (.command c)

/-- A step that returns a finite effect on every value, in every world. -/
def Step.ReturnsFinite (M : Meaning S) (step : Step S) : Prop :=
  ∀ (value : S.Value) (w : S.World), (step.run M value w).1.Finite M

namespace Effect.Finite

variable {M : Meaning S} {e : Effect S}

/-- A command that some result leads back to is not finite, such as one that asks until it is
content with the answer. -/
theorem not_of_resume_self {c : Command S} {result : S.Result c.request.result} {w : S.World}
    (hback : (c.resume M c.request.result result w).1 = .ok (.command c)) :
    ¬ (Effect.command c).Finite M := by
  intro hfinite
  generalize he : Effect.command c = e at hfinite
  induction hfinite with
  | success value =>
    cases he
  | failure error =>
    cases he
  | command c' results ih =>
    cases he
    exact ih result w _ hback rfl

/-- A link that returns finite effects keeps an effect finite.  The induction is on the effect and
not on its queue: the link moves on to what comes of a command, and that is finite before the
command is. -/
theorem link (he : e.Finite M) {l : Link S}
    (hl : ∀ step, l = .onSuccess step → step.ReturnsFinite M) (w : S.World) :
    (e.link M l w).1.Finite M := by
  induction he generalizing w with
  | success value =>
    cases l with
    | onSuccess step =>
      exact hl step rfl value w
    | onError f =>
      exact .success value
  | failure error =>
    cases l with
    | onSuccess step =>
      exact .failure error
    | onError f =>
      exact .failure _
  | command c results ih =>
    rw [link_command]
    refine .command (c.push l) fun result w' e' hresume => ?_
    rw [Command.resume_push, Action.bind_apply] at hresume
    rcases passAnswer_eq_ok hresume with ⟨next, hnext, hlast⟩
    rw [Effect.pass_singleton] at hlast
    exact hlast ▸ ih result w' next hnext _

theorem andThen (he : e.Finite M) {step : Step S} (hstep : step.ReturnsFinite M) (w : S.World) :
    (e.andThen M step w).1.Finite M := by
  refine he.link (l := .onSuccess step) (fun step' hl => ?_) w
  cases hl
  exact hstep

theorem mapErr (he : e.Finite M) (f : S.Error → Action S S.Error) (w : S.World) :
    (e.mapErr f w).1.Finite M :=
  he.link (l := .onError f) nofun w

/-- Steps that return finite effects, folded over a finite effect. -/
theorem runAll (he : e.Finite M) {steps : List (Step S)}
    (hsteps : ∀ step ∈ steps, step.ReturnsFinite M) (w : S.World) :
    (Step.runAll M steps e w).1.Finite M := by
  rw [Step.runAll_eq_foldlM]
  induction steps generalizing e w with
  | nil =>
    exact he
  | cons step rest ih =>
    have hfirst := he.andThen (hsteps step List.mem_cons_self) w
    have hrest : ∀ step ∈ rest, step.ReturnsFinite M :=
      fun s hs => hsteps s (List.mem_cons_of_mem _ hs)
    rw [List.foldlM_cons, Action.bind_apply]
    exact ih hfirst hrest _

end Effect.Finite

theorem Step.returnsFinite_map (M : Meaning S) (f : S.Value → Action S S.Value) :
    (Step.map f).ReturnsFinite M := by
  intro value w
  rw [Step.run]
  exact .success _

theorem Step.returnsFinite_ensure (M : Meaning S) (holds : S.Value → Action S Bool)
    (error : Action S S.Error) : (Step.ensure holds error).ReturnsFinite M := by
  intro value w
  rw [Step.run, Action.bind_apply]
  cases (holds value w).1 with
  | true =>
    exact .success value
  | false =>
    exact .failure _

/-! ## Runs -/

/-- If a command has led on to an effect, its operation has answered a result, and that result
leads to the same effect by hand. -/
theorem Command.resume_of_advance {M : Meaning S} {c : Command S} {e : Effect S}
    {w w₁ : S.World} (h : c.advance M w = (.next e, w₁)) :
    ∃ result w₀, c.request.operation w = (.ok result, w₀) ∧
      c.resume M c.request.result result w₀ = (.ok e, w₁) := by
  rcases hanswer : c.request.operation w with ⟨answer, w₀⟩
  cases answer with
  | error error =>
    rw [advance_of_refusal hanswer] at h
    cases h
  | ok result =>
    rcases happly : c.request.continuation.apply M result w₀ with ⟨outcome, w₂⟩
    cases outcome with
    | error fault =>
      rw [advance_of_error hanswer happly] at h
      cases h
    | ok next =>
      rw [advance_of_ok hanswer happly] at h
      cases h
      exact ⟨result, w₀, rfl, resume_of_ok happly⟩

/-- A run of a finite effect ends.  By hand the same effects are reached, so the induction on the
effect goes along the run. -/
theorem Effect.Finite.run {I : Interpreter S} {span : Option String} {e : Effect S}
    (he : e.Finite I.meaning) (w : S.World) : ∃ r t w', I.Run span e w r t w' := by
  induction he generalizing w with
  | success value =>
    exact ⟨_, _, _, .success value w⟩
  | failure error =>
    exact ⟨_, _, _, .failure error w⟩
  | command c results ih =>
    rcases hadvance : c.advance I.meaning (I.announce span c w) with ⟨a, w₁⟩
    cases a with
    | fault phase error =>
      exact ⟨_, _, _, .fault hadvance⟩
    | next e =>
      rcases Command.resume_of_advance hadvance with ⟨result, w₀, -, hresume⟩
      have hnext : (c.resume I.meaning c.request.result result w₀).1 = .ok e := by rw [hresume]
      rcases ih result w₀ e hnext w₁ with ⟨r, t, w', hrun⟩
      exact ⟨_, _, _, .next hadvance hrun⟩

/-! ## Rounds of the loop over a queue -/

namespace Effect

/-- The loop that passes an effect through a queue, cut off after a number of rounds.  Every round
takes one link off the queue. -/
def passWithin (M : Meaning S) : Nat → Effect S → Deque (Link S) → Action S (Option (Effect S))
  | _, .failure error, queue => return some (.failure (← passError error queue))
  | _, .command c, queue => return some (.command (c.inherit queue))
  | 0, .success value, queue =>
      match queue.popFront? with
      | none => return some (.success value)
      | some _ => return none
  | rounds + 1, .success value, queue =>
      match queue.popFront? with
      | none => return some (.success value)
      | some (.onSuccess step, rest) => do passWithin M rounds (← step.run M value) rest
      | some (.onError _, rest) => passWithin M rounds (.success value) rest

/-- The loop is over after as many rounds as there are links. -/
theorem passWithin_eq (M : Meaning S) (rounds : Nat) (e : Effect S) (queue : Deque (Link S))
    (h : queue.size ≤ rounds) : e.passWithin M rounds queue = some <$> e.pass M queue := by
  obtain ⟨links, rfl⟩ : ∃ links, queue = .ofList links := ⟨queue.toList, by simp⟩
  rw [← Deque.length_toList, Deque.toList_ofList] at h
  induction links generalizing e rounds with
  | nil =>
    cases e with
    | success value =>
      cases rounds <;> simp [passWithin, pass_nil]
    | failure error =>
      simp [passWithin, pass_failure]
    | command c =>
      simp [passWithin, pass_command]
  | cons l rest ih =>
    obtain ⟨rounds, rfl⟩ : ∃ n, rounds = n + 1 := ⟨rounds - 1, by simp at h; omega⟩
    have hrest : rest.length ≤ rounds := by simpa using h
    cases e with
    | success value =>
      cases l with
      | onSuccess step =>
        simp [passWithin, pass_success_onSuccess, fun e => ih rounds e hrest]
      | onError f =>
        simp [passWithin, pass_success_onError, ih rounds _ hrest]
    | failure error =>
      simp [passWithin, pass_failure]
    | command c =>
      simp [passWithin, pass_command]

/-! ## All together -/

open Interpreter in
/-- Finite flows stay finite, and they are driven to an outcome.

* A finite effect that is chained with a step which returns a finite effect on every value is
  finite, and so it is with `map`, `ensure` and `mapErr` and any functions.
* A pipeline of steps that return finite effects gives a finite effect for every start value.
* Passing any effect through any queue takes no more rounds than there are links.
* Whatever the operations answer, a run of a finite effect ends.  It invokes as many operations as
  its record has labels: with that number, or any larger one, the interpreter comes to the end, and
  with a smaller one it does not. -/
theorem finite_closed_and_ends (M : Meaning S) :
    (∀ e, Finite M e → ∀ step : Step S, step.ReturnsFinite M →
      ∀ w, Finite M (e.andThen M step w).1) ∧
    (∀ e, Finite M e → ∀ f w, Finite M (e.map M f w).1) ∧
    (∀ e, Finite M e → ∀ holds error w, Finite M (e.ensure M holds error w).1) ∧
    (∀ e, Finite M e → ∀ f w, Finite M (e.mapErr f w).1) ∧
    (∀ p : Pipeline S, (∀ step ∈ p.toList, step.ReturnsFinite M) →
      ∀ start w, Finite M (p.run M start w).1) ∧
    (∀ (e : Effect S) (queue : Deque (Link S)),
      e.passWithin M queue.size queue = some <$> e.pass M queue) ∧
    (∀ e, Finite M e → ∀ (observe : Event → Action S Unit) (w : S.World),
      ∃ r t w' lines,
        (∀ limit, t.size ≤ limit → runRecorded ⟨M, observe⟩ limit e w = (some (r, t), w')) ∧
        (∀ limit, limit < t.size → (runRecorded ⟨M, observe⟩ limit e w).1 = none) ∧
        (Interpreter.journaled ⟨M, observe⟩).Ends (pure e.journaled) (w, []) r t (w', lines) ∧
        (lines.filterMap Journal.Entry.invoked?).length = t.size) := by
  refine ⟨?_, ?_, ?_, ?_, ?_, ?_, ?_⟩
  · intro e he step hstep w
    exact he.andThen hstep w
  · intro e he f w
    exact he.andThen (Step.returnsFinite_map M f) w
  · intro e he holds error w
    exact he.andThen (Step.returnsFinite_ensure M holds error) w
  · intro e he f w
    exact he.mapErr f w
  · intro p hp start w
    exact Finite.runAll (.success start) hp w
  · intro e queue
    exact passWithin_eq M queue.size e queue (Nat.le_refl _)
  · intro e he observe w
    have hruns : ∃ r t w₁, Interpreter.Run ⟨M, observe⟩ none e w r t w₁ := Finite.run he w
    rcases hruns with ⟨r, t, w₁, hrun⟩
    rcases hrun.journaled [] with ⟨blocks, hblocks, hjournaled⟩
    have haccounts := hrun.accounts hblocks
    refine ⟨r, t, _, blocks.flatMap (Journal.Block.entries none) ++ t.faultEntries none,
      fun limit hlimit => hrun.runRecorded_of_le hlimit,
      fun limit hlimit => hrun.runRecorded_of_lt hlimit, ends_iff_run.2 ⟨_, hjournaled, ?_⟩, ?_⟩
    · rw [journaled_reportFault, List.nil_append]
    · rw [haccounts.invoked, Array.length_toList]
      rfl

end Effect

namespace Interpreter

namespace Diary

theorem finite_ask (label : Label) (n : Nat) :
    (Effect.command (ask label n [])).Finite interpreter.meaning := by
  refine .command _ fun (m : Nat) diary e hresume => ?_
  -- A number that is supplied by hand is the outcome, unless it is zero.
  by_cases hm : m = 0
  · have houtcome : Effect.failure (0 : Nat) = e := by
      simpa [Command.resume, ask, interpreter, Continuation.apply, hm] using hresume
    exact houtcome ▸ .failure _
  · have houtcome : Effect.success m = e := by
      simpa [Command.resume, ask, interpreter, Continuation.apply, hm, Effect.pass_nil] using
        hresume
    exact houtcome ▸ .success _

theorem returnsFinite_call (label : Label) :
    (Step.call label : Step signature).ReturnsFinite interpreter.meaning := by
  intro n diary
  rw [Step.run]
  exact finite_ask label n

theorem finite_twice (n : Nat) : (twice n).Finite interpreter.meaning := by
  have hpushed : ask first n [.onSuccess (.call second)] =
      (ask first n []).push (.onSuccess (.call second)) := by
    have hqueue : Deque.ofList [Link.onSuccess (.call second)] =
        (Deque.ofList []).pushBack (Link.onSuccess (S := signature) (.call second)) :=
      Deque.ext (by simp)
    rw [ask, hqueue]
    rfl
  rw [twice, hpushed]
  exact (finite_ask first n).andThen (returnsFinite_call second) []

end Diary

open Diary in
/-- A number that is asked for twice takes two operations, and none less; with a third operation
behind it, it is finite as well. -/
theorem finite_closed_and_ends_twice :
    (twice 7).Finite interpreter.meaning ∧
    (Step.call third : Step signature).ReturnsFinite interpreter.meaning ∧
    ((twice 7).andThen interpreter.meaning (.call third) []).1.Finite interpreter.meaning ∧
    ∃ diary, (∀ limit, 2 ≤ limit → interpreter.runRecorded limit (twice 7) [] =
        (some (.ok (7 : Nat), ⟨#[first, second], none⟩), diary)) ∧
      (interpreter.runRecorded 1 (twice 7) []).1 = none := by
  have hlaws := Effect.finite_closed_and_ends interpreter.meaning
  rcases hlaws with ⟨handThen, -, -, -, -, -, hends⟩
  rcases hends (twice 7) (finite_twice 7) interpreter.observe [] with
    ⟨r, t, diary, -, hrun, hshort, -⟩
  -- The run that is known of this flow is the one that was found.
  have hfound : interpreter.Ends (pure (twice 7)) [] r t diary := ⟨t.size, hrun _ (Nat.le_refl _)⟩
  rcases hfound.unique ends_twice with ⟨hr, ht, hdiary⟩
  subst hr ht hdiary
  exact ⟨finite_twice 7, returnsFinite_call third,
    handThen _ (finite_twice 7) _ (returnsFinite_call third) [], _, hrun, hshort 1 (by decide)⟩

end Interpreter

end Deferred
