import Deferred.Proofs.Passage
import Deferred.Proofs.Run

/-!
# View — effects whose functions keep to a part of the world

A view reads a part of the world, for instance the calls that functions have written down there.
Functions keep to a view if what they answer, and what they leave of it, follows from their
arguments and the view alone; operations have fixed answers and leave the view as it is.  Then
nothing that operations and reports do elsewhere in the world can be told from the view.

* `Action.KeepsTo` — one computation, with a property of its value;
* `Action.Fixed` — an operation with a fixed answer, out of sight;
* `Step.KeepsTo`, `Link.KeepsTo`, `Command.KeepsTo`, `Effect.KeepsTo`, `Meaning.KeepsTo` — all
  functions and operations of an effect, and those behind the names;
* `Command.KeepsTo.resume`, `Command.KeepsTo.advance` — what comes of a command keeps to the view;
* `Interpreter.Run.transfer` — a run is the same from every world with the same view.
-/

namespace Deferred

variable {S : Signature} {V : Type} {view : S.World → V}

/-! ## Computations -/

/-- In worlds with the same view a computation has the same value, which has a given property, and
it leaves the same view behind. -/
def Action.KeepsTo {α : Type} (view : S.World → V) (P : α → Prop) (x : Action S α) : Prop :=
  ∀ w v, view w = view v → (x w).1 = (x v).1 ∧ view (x w).2 = view (x v).2 ∧ P (x w).1

/-- A computation with a fixed value that leaves the view as it is. -/
def Action.Fixed {α : Type} (view : S.World → V) (a : α) (x : Action S α) : Prop :=
  ∀ w, (x w).1 = a ∧ view (x w).2 = view w

/-- Nothing is asked of a value. -/
def Unrestricted {α : Type} (_ : α) : Prop := True

namespace Action.KeepsTo

variable {α β : Type} {P : α → Prop} {Q : β → Prop}

theorem pure {a : α} (h : P a) : Action.KeepsTo view P (Pure.pure a) :=
  fun _ _ hview => ⟨rfl, hview, h⟩

theorem bind {x : Action S α} {f : α → Action S β} (hx : Action.KeepsTo view P x)
    (hf : ∀ a, P a → Action.KeepsTo view Q (f a)) : Action.KeepsTo view Q (x >>= f) := by
  intro w v hview
  rcases hx w v hview with ⟨hvalue, hleft, hP⟩
  have hrest := hf _ hP (x w).2 (x v).2 hleft
  rw [Action.bind_apply, Action.bind_apply, ← hvalue]
  exact hrest

theorem map {x : Action S α} {f : α → β} (hx : Action.KeepsTo view P x)
    (hf : ∀ a, P a → Q (f a)) : Action.KeepsTo view Q (f <$> x) := by
  intro w v hview
  rcases hx w v hview with ⟨hvalue, hleft, hP⟩
  exact ⟨congrArg f hvalue, hleft, hf _ hP⟩

theorem of_fixed {x : Action S α} {a : α} (hx : Action.Fixed view a x) :
    Action.KeepsTo view Unrestricted x := by
  intro w v hview
  rcases hx w with ⟨hw, hleft⟩
  rcases hx v with ⟨hv, hright⟩
  exact ⟨hw.trans hv.symm, by rw [hleft, hright, hview], trivial⟩

end Action.KeepsTo

/-! ## Effects -/

/-- All functions in a step keep to the view. -/
inductive Step.KeepsTo (view : S.World → V) : Step S → Prop where
  | call (f : S.Fn) : KeepsTo view (.call f)
  | map {f : S.Value → Action S S.Value}
      (hf : ∀ value, (f value).KeepsTo view Unrestricted) : KeepsTo view (.map f)
  | ensure {holds : S.Value → Action S Bool} {error : Action S S.Error}
      (hholds : ∀ value, (holds value).KeepsTo view Unrestricted)
      (herror : error.KeepsTo view Unrestricted) : KeepsTo view (.ensure holds error)
  | andThen {first next : Step S} (hfirst : KeepsTo view first) (hnext : KeepsTo view next) :
      KeepsTo view (.andThen first next)
  | mapErr {step : Step S} {f : S.Error → Action S S.Error} (hstep : KeepsTo view step)
      (hf : ∀ error, (f error).KeepsTo view Unrestricted) : KeepsTo view (.mapErr step f)
  | after {before : Action S Unit} {step : Step S}
      (hbefore : before.KeepsTo view Unrestricted) (hstep : KeepsTo view step) :
      KeepsTo view (.after before step)
  | pipeline {steps : List (Step S)} (hsteps : ∀ step ∈ steps, KeepsTo view step) :
      KeepsTo view (.pipeline steps)

/-- The functions in a link keep to the view. -/
inductive Link.KeepsTo (view : S.World → V) : Link S → Prop where
  | onSuccess {step : Step S} (hstep : step.KeepsTo view) : KeepsTo view (.onSuccess step)
  | onError {f : S.Error → Action S S.Error}
      (hf : ∀ error, (f error).KeepsTo view Unrestricted) : KeepsTo view (.onError f)

/-- The operation of a command has a fixed answer, and the links behind it keep to the view. -/
structure Command.KeepsTo (view : S.World → V) (c : Command S) : Prop where
  operation : ∃ answer, c.request.operation.Fixed view answer
  queue : ∀ l ∈ c.queue.toList, l.KeepsTo view

/-- An effect that has no functions or operations but such. -/
inductive Effect.KeepsTo (view : S.World → V) : Effect S → Prop where
  | success (value : S.Value) : KeepsTo view (.success value)
  | failure (error : S.Error) : KeepsTo view (.failure error)
  | command {c : Command S} (hc : c.KeepsTo view) : KeepsTo view (.command c)

/-- What the functions behind the names return keeps to the view, and so do they. -/
structure Meaning.KeepsTo (view : S.World → V) (M : Meaning S) : Prop where
  call : ∀ f value, (M.call f value).KeepsTo view (Effect.KeepsTo view)
  resume : ∀ {r : S.ResultType} (k : S.Cont r) result,
    (M.resume k result).KeepsTo view (Effect.KeepsTo view)
  tryResume : ∀ {r : S.ResultType} (k : S.TryCont r) result,
    (M.tryResume k result).KeepsTo view fun outcome => ∀ e, outcome = .ok e → e.KeepsTo view

/-! ## What comes of them -/

theorem Command.KeepsTo.push {c : Command S} (hc : c.KeepsTo view) {l : Link S}
    (hl : l.KeepsTo view) : (c.push l).KeepsTo view := by
  refine ⟨hc.operation, fun l' hl' => ?_⟩
  rw [Command.toList_queue_push, List.mem_append, List.mem_singleton] at hl'
  rcases hl' with hl' | rfl
  · exact hc.queue l' hl'
  · exact hl

theorem passErrorAlong_keepsTo {links : List (Link S)} (hlinks : ∀ l ∈ links, l.KeepsTo view)
    (error : S.Error) : (passErrorAlong error links).KeepsTo view Unrestricted := by
  induction links generalizing error with
  | nil =>
    exact .pure trivial
  | cons l rest ih =>
    have hrest : ∀ l ∈ rest, l.KeepsTo view := fun l hl => hlinks l (List.mem_cons_of_mem _ hl)
    have hl := hlinks l List.mem_cons_self
    cases hl with
    | onSuccess _ =>
      exact ih hrest error
    | onError hf =>
      exact (hf error).bind fun error' _ => ih hrest error'

namespace Effect.KeepsTo

variable {M : Meaning S} {e : Effect S}

theorem mapErr (he : e.KeepsTo view) {f : S.Error → Action S S.Error}
    (hf : ∀ error, (f error).KeepsTo view Unrestricted) :
    (e.mapErr f).KeepsTo view (Effect.KeepsTo view) := by
  cases he with
  | success value =>
    exact .pure (.success value)
  | failure error =>
    exact (hf error).map fun error' _ => .failure error'
  | command hc =>
    exact .pure (.command (hc.push (.onError hf)))

/-- A step that is chained behind an effect, if the step itself is as it should be. -/
theorem andThen (he : e.KeepsTo view) {step : Step S} (hstep : step.KeepsTo view)
    (hrun : ∀ value, (step.run M value).KeepsTo view (Effect.KeepsTo view)) :
    (e.andThen M step).KeepsTo view (Effect.KeepsTo view) := by
  cases he with
  | success value =>
    exact hrun value
  | failure error =>
    exact .pure (.failure error)
  | command hc =>
    exact .pure (.command (hc.push (.onSuccess hstep)))

end Effect.KeepsTo

/-- A fold of steps is as its steps are. -/
theorem Step.runAll_keepsTo {M : Meaning S} {steps : List (Step S)}
    (hsteps : ∀ step ∈ steps, step.KeepsTo view)
    (hrun : ∀ step ∈ steps, ∀ value, (step.run M value).KeepsTo view (Effect.KeepsTo view))
    {e : Effect S} (he : e.KeepsTo view) :
    (Step.runAll M steps e).KeepsTo view (Effect.KeepsTo view) := by
  induction steps generalizing e with
  | nil =>
    exact .pure he
  | cons step rest ih =>
    have hrest : ∀ e : Effect S, e.KeepsTo view →
        (Step.runAll M rest e).KeepsTo view (Effect.KeepsTo view) := fun _ =>
      ih (fun s hs => hsteps s (List.mem_cons_of_mem _ hs))
        fun s hs => hrun s (List.mem_cons_of_mem _ hs)
    cases he with
    | success value =>
      rw [Step.runAll]
      exact (hrun step List.mem_cons_self value).bind hrest
    | failure error =>
      exact .pure (.failure error)
    | command hc =>
      exact hrest _ (.command (hc.push (.onSuccess (hsteps step List.mem_cons_self))))

theorem Step.KeepsTo.run {M : Meaning S} (hM : M.KeepsTo view) {step : Step S}
    (hstep : step.KeepsTo view) (value : S.Value) :
    (step.run M value).KeepsTo view (Effect.KeepsTo view) := by
  induction hstep generalizing value with
  | call f =>
    rw [Step.run]
    exact hM.call f value
  | map hf =>
    rw [Step.run]
    exact (hf value).bind fun value' _ => .pure (.success value')
  | ensure hholds herror =>
    rw [Step.run]
    refine (hholds value).bind fun holds _ => ?_
    cases holds with
    | true =>
      exact .pure (.success value)
    | false =>
      exact herror.bind fun error _ => .pure (.failure error)
  | andThen _ hnext ihfirst ihnext =>
    rw [Step.run_andThen]
    exact (ihfirst value).bind fun _ he => he.andThen hnext ihnext
  | mapErr _ hf ih =>
    rw [Step.run_mapErr]
    exact (ih value).bind fun _ he => he.mapErr hf
  | after hbefore _ ih =>
    rw [Step.run]
    exact hbefore.bind fun _ _ => ih value
  | pipeline hsteps ih =>
    rw [Step.run]
    exact Step.runAll_keepsTo hsteps ih (.success value)

section

variable {M : Meaning S} (hM : M.KeepsTo view)

include hM

theorem Effect.KeepsTo.pass {e : Effect S} (he : e.KeepsTo view) {links : List (Link S)}
    (hlinks : ∀ l ∈ links, l.KeepsTo view) :
    (e.pass M (.ofList links)).KeepsTo view (Effect.KeepsTo view) := by
  induction links generalizing e with
  | nil =>
    rw [Effect.pass_nil]
    exact .pure he
  | cons l rest ih =>
    have hrest : ∀ l ∈ rest, l.KeepsTo view := fun l hl => hlinks l (List.mem_cons_of_mem _ hl)
    have hlink : (e.link M l).KeepsTo view (Effect.KeepsTo view) := by
      have hl := hlinks l List.mem_cons_self
      cases hl with
      | onSuccess hstep =>
        exact he.andThen hstep (hstep.run hM)
      | onError hf =>
        exact he.mapErr hf
    rw [Effect.pass_cons]
    exact hlink.bind fun _ hnext => ih hnext hrest

theorem Continuation.apply_keepsTo {r : S.ResultType} (k : Continuation S r)
    (result : S.Result r) :
    (k.apply M result).KeepsTo view fun outcome => ∀ e, outcome = .ok e → e.KeepsTo view := by
  cases k with
  | total k =>
    refine (hM.resume k result).map fun e he e' heq => ?_
    cases heq
    exact he
  | fallible k =>
    exact hM.tryResume k result

namespace Command.KeepsTo

variable {c : Command S} (hc : c.KeepsTo view)

include hc

omit hM in
theorem passError (error : S.Error) : (passError error c.queue).KeepsTo view Unrestricted :=
  passErrorAlong_keepsTo hc.queue error

theorem pass {e : Effect S} (he : e.KeepsTo view) :
    (e.pass M c.queue).KeepsTo view (Effect.KeepsTo view) := by
  have hpass := he.pass hM hc.queue
  rwa [Deque.ofList_toList] at hpass

/-- What comes of a result that is supplied by hand. -/
theorem resume (result : S.Result c.request.result) :
    (c.resume M c.request.result result).KeepsTo view fun answer =>
      ∃ e, answer = .ok e ∧ e.KeepsTo view := by
  unfold Command.resume
  simp only [↓reduceDIte]
  refine (Continuation.apply_keepsTo hM _ result).bind fun outcome houtcome => ?_
  cases outcome with
  | ok e =>
    exact (hc.pass hM (houtcome e rfl)).map fun e' he' => ⟨e', rfl, he'⟩
  | error fault =>
    exact (hc.passError fault).bind fun error _ => .pure ⟨_, rfl, .failure error⟩

/-- What comes of a step of the interpreter. -/
theorem advance :
    (c.advance M).KeepsTo view fun a => ∀ e, a = .next e → e.KeepsTo view := by
  rcases hc.operation with ⟨answer, hanswer⟩
  unfold Command.advance
  refine (Action.KeepsTo.of_fixed hanswer).bind fun answer _ => ?_
  cases answer with
  | error error =>
    exact (hc.passError error).map fun _ _ _ heq => nomatch heq
  | ok result =>
    refine (Continuation.apply_keepsTo hM _ result).bind fun outcome houtcome => ?_
    cases outcome with
    | error fault =>
      exact (hc.passError fault).map fun _ _ _ heq => nomatch heq
    | ok e =>
      refine (hc.pass hM (houtcome e rfl)).map fun e' he' e'' heq => ?_
      cases heq
      exact he'

end Command.KeepsTo

end

/-! ## Runs -/

namespace Interpreter

variable {I : Interpreter S} {span : Option String}

/-- Reports are made out of sight. -/
def ReportsUnseen (I : Interpreter S) (view : S.World → V) : Prop :=
  ∀ event w, view (I.observe event w).2 = view w

theorem ReportsUnseen.announce (hI : I.ReportsUnseen view) (span : Option String) (c : Command S)
    (w : S.World) : view (I.announce span c w) = view w :=
  hI _ w

theorem ReportsUnseen.reportFault (hI : I.ReportsUnseen view) (span : Option String) (t : Trace)
    (w : S.World) : view (I.reportFault span t w).2 = view w := by
  unfold Interpreter.reportFault
  cases t.fault with
  | none =>
    rfl
  | some fault =>
    exact hI _ w

/-- A run is the same from every world with the same view. -/
theorem Run.transfer (hM : I.meaning.KeepsTo view) (hI : I.ReportsUnseen view) {e : Effect S}
    {w w' : S.World} {r : Except S.Error S.Value} {t : Trace} (h : I.Run span e w r t w')
    (he : e.KeepsTo view) {v : S.World} (hview : view w = view v) :
    ∃ v', I.Run span e v r t v' ∧ view w' = view v' := by
  induction h generalizing v with
  | success value w =>
    exact ⟨v, .success value v, hview⟩
  | failure error w =>
    exact ⟨v, .failure error v, hview⟩
  | @next c e w w₁ w₂ r t advanced _ ih =>
    cases he with
    | command hc =>
      have hannounced : view (I.announce span c w) = view (I.announce span c v) := by
        rw [hI.announce, hI.announce, hview]
      rcases hadvance : c.advance I.meaning (I.announce span c v) with ⟨a, v₁⟩
      rcases hc.advance hM _ _ hannounced with ⟨hvalue, hleft, hkeeps⟩
      rw [advanced, hadvance] at hvalue hleft
      rw [advanced] at hkeeps
      rcases ih (hkeeps e rfl) hleft with ⟨v', hrun, hend⟩
      have ha : a = .next e := hvalue.symm
      subst ha
      exact ⟨v', .next hadvance hrun, hend⟩
  | @fault c phase error w w₁ advanced =>
    cases he with
    | command hc =>
      have hannounced : view (I.announce span c w) = view (I.announce span c v) := by
        rw [hI.announce, hI.announce, hview]
      rcases hadvance : c.advance I.meaning (I.announce span c v) with ⟨a, v₁⟩
      rcases hc.advance hM _ _ hannounced with ⟨hvalue, hleft, -⟩
      rw [advanced, hadvance] at hvalue hleft
      have ha : a = .fault phase error := hvalue.symm
      subst ha
      exact ⟨v₁, .fault hadvance, hleft⟩

end Interpreter

end Deferred
