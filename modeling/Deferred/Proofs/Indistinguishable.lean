import Deferred.Proofs.Passage
import Deferred.Proofs.Run

/-!
# Indistinguishable — effects that no observer can tell apart

An observer may look at an effect, feed results to it by hand, and run it.  The queue of a command
cannot be looked at, so different queues may be behind effects that are all the same to observers.

* `Action.Alike` — computations that change the world alike and give related values;
* `Effect.Bisimulation`, `Effect.Indistinguishable` — effects that answer every observation alike,
  and so do the effects that come of them;
* `Interchangeable` — two blocks of links that make the same of every outcome;
* `Rearranged` — queues that fall into such blocks one by one;
* `Rearranged.indistinguishable` — such queues make no difference to any observer.
-/

namespace Deferred

variable {S : Signature}

/-! ## Computations side by side -/

/-- From every world both computations lead to one and the same world, and their values are
related.  Whatever is called and written down on the way is so in the same order. -/
def Action.Alike {α β : Type} (R : α → β → Prop) (x : Action S α) (y : Action S β) : Prop :=
  ∀ w, R (x w).1 (y w).1 ∧ (x w).2 = (y w).2

namespace Action.Alike

variable {α β γ δ : Type} {R : α → β → Prop} {Q : γ → δ → Prop}

theorem pure {a : α} {b : β} (h : R a b) :
    Action.Alike (S := S) R (Pure.pure a) (Pure.pure b) :=
  fun _ => ⟨h, rfl⟩

theorem of_eq {P : α → α → Prop} (hP : ∀ a, P a a) {x y : Action S α} (h : x = y) :
    Action.Alike P x y := by
  subst h
  exact fun _ => ⟨hP _, rfl⟩

theorem bind {x : Action S α} {y : Action S β} {f : α → Action S γ} {g : β → Action S δ}
    (hx : Action.Alike R x y) (hf : ∀ a b, R a b → Action.Alike Q (f a) (g b)) :
    Action.Alike Q (x >>= f) (y >>= g) := by
  intro w
  rcases hx w with ⟨hvalue, hworld⟩
  have hrest := hf _ _ hvalue (x w).2
  rw [Action.bind_apply, Action.bind_apply, ← hworld]
  exact hrest

theorem map {x : Action S α} {y : Action S β} {f : α → γ} {g : β → δ}
    (hx : Action.Alike R x y) (hf : ∀ a b, R a b → Q (f a) (g b)) :
    Action.Alike Q (f <$> x) (g <$> y) :=
  fun w => ⟨hf _ _ (hx w).1, (hx w).2⟩

theorem mono {P : α → β → Prop} {x : Action S α} {y : Action S β}
    (hx : Action.Alike R x y) (h : ∀ a b, R a b → P a b) : Action.Alike P x y :=
  fun w => ⟨h _ _ (hx w).1, (hx w).2⟩

theorem symm {P : β → α → Prop} {x : Action S α} {y : Action S β}
    (hx : Action.Alike R x y) (h : ∀ a b, R a b → P b a) : Action.Alike P y x :=
  fun w => ⟨h _ _ (hx w).1, (hx w).2.symm⟩

/-- Computations with equal values that act alike are one computation. -/
theorem eq {x y : Action S α} (h : Action.Alike Eq x y) : x = y :=
  funext fun w => Prod.ext (h w).1 (h w).2

end Action.Alike

/-! ## Observations -/

namespace Effect

/-- Answers to a result that was supplied by hand: both refuse it for the same reason, or related
effects come of it. -/
inductive Answers (R : Effect S → Effect S → Prop) :
    Except ResumeError (Effect S) → Except ResumeError (Effect S) → Prop where
  | refused (reason : ResumeError) : Answers R (.error reason) (.error reason)
  | resumed {a b : Effect S} (h : R a b) : Answers R (.ok a) (.ok b)

/-- A relation that no observation leads out of: related effects have the same outcome and the
same label, results of every type are answered by both with the same refusal or with effects that
are related again, and all their runs are the same. -/
structure Bisimulation (M : Meaning S) (R : Effect S → Effect S → Prop) : Prop where
  outcome : ∀ a b, R a b → a.outcome? = b.outcome?
  label : ∀ a b, R a b → a.label? = b.label?
  resume : ∀ a b, R a b → ∀ (r : S.ResultType) (result : S.Result r),
    Action.Alike (Answers R) (a.resume M r result) (b.resume M r result)
  run : ∀ a b, R a b → ∀ (observe : Event → Action S Unit) (limit : Nat),
    Interpreter.runRecorded ⟨M, observe⟩ limit a = Interpreter.runRecorded ⟨M, observe⟩ limit b

/-- Effects that no observation can tell apart. -/
def Indistinguishable (M : Meaning S) (a b : Effect S) : Prop :=
  ∃ R, Bisimulation M R ∧ R a b

namespace Answers

variable {R : Effect S → Effect S → Prop} {a b : Except ResumeError (Effect S)}

theorem swap (hab : Answers R a b) : Answers (fun b a => R a b) b a := by
  cases hab with
  | refused reason =>
    exact .refused reason
  | resumed hab =>
    exact .resumed hab

end Answers

namespace Indistinguishable

variable {M : Meaning S}

theorem refl (e : Effect S) : Indistinguishable M e e := by
  refine ⟨Eq, ?_, rfl⟩
  constructor
  · intro a b hab
    rw [hab]
  · intro a b hab
    rw [hab]
  · intro a b hab r result
    subst hab
    refine .of_eq ?_ rfl
    intro answer
    cases answer with
    | ok e =>
      exact .resumed rfl
    | error reason =>
      exact .refused reason
  · intro a b hab observe limit
    rw [hab]

theorem symm {a b : Effect S} (h : Indistinguishable M a b) : Indistinguishable M b a := by
  rcases h with ⟨R, hR, hab⟩
  refine ⟨fun b a => R a b, ?_, hab⟩
  constructor
  · intro b a h
    exact (hR.outcome a b h).symm
  · intro b a h
    exact (hR.label a b h).symm
  · intro b a h r result
    exact (hR.resume a b h r result).symm fun _ _ hanswer => hanswer.swap
  · intro b a h observe limit
    exact (hR.run a b h observe limit).symm

end Indistinguishable

end Effect

/-! ## Queues -/

/-- Two blocks of links that make the same of every success and of every error. -/
structure Interchangeable (M : Meaning S) (first second : List (Link S)) : Prop where
  success : ∀ value : S.Value,
    (Effect.success value).pass M (.ofList first) = (Effect.success value).pass M (.ofList second)
  error : ∀ error : S.Error, passErrorAlong error first = passErrorAlong error second

/-- Queues that can be cut into blocks of which each does the same as its counterpart. -/
inductive Rearranged (M : Meaning S) : List (Link S) → List (Link S) → Prop where
  | nil : Rearranged M [] []
  | block {first second rest rest' : List (Link S)} (h : Interchangeable M first second)
      (hrest : Rearranged M rest rest') : Rearranged M (first ++ rest) (second ++ rest')

/-- The same outcome, or the same request with the same label and a rearranged queue. -/
inductive Effect.Rearranged (M : Meaning S) : Effect S → Effect S → Prop where
  | success (value : S.Value) : Effect.Rearranged M (.success value) (.success value)
  | failure (error : S.Error) : Effect.Rearranged M (.failure error) (.failure error)
  | command (label : Label) (request : Request S) {queue queue' : Deque (Link S)}
      (h : Deferred.Rearranged M queue.toList queue'.toList) :
      Effect.Rearranged M (.command ⟨label, request, queue⟩) (.command ⟨label, request, queue'⟩)

namespace Rearranged

variable {M : Meaning S}

theorem of_interchangeable {first second : List (Link S)} (h : Interchangeable M first second) :
    Rearranged M first second := by
  have hblock := Rearranged.block h .nil
  rwa [List.append_nil, List.append_nil] at hblock

theorem refl (links : List (Link S)) : Rearranged M links links :=
  of_interchangeable ⟨fun _ => rfl, fun _ => rfl⟩

theorem append {first first' rest rest' : List (Link S)} (hfirst : Rearranged M first first')
    (hrest : Rearranged M rest rest') : Rearranged M (first ++ rest) (first' ++ rest') := by
  induction hfirst with
  | nil =>
    exact hrest
  | block h _ ih =>
    rw [List.append_assoc, List.append_assoc]
    exact .block h ih

theorem passErrorAlong_eq {links links' : List (Link S)} (h : Rearranged M links links')
    (error : S.Error) : passErrorAlong error links = passErrorAlong error links' := by
  induction h generalizing error with
  | nil =>
    rfl
  | block h _ ih =>
    rw [passErrorAlong_append, passErrorAlong_append, h.error]
    exact bind_congr ih

end Rearranged

namespace Effect.Rearranged

variable {M : Meaning S}

theorem refl (e : Effect S) : Effect.Rearranged M e e := by
  cases e with
  | success value =>
    exact .success value
  | failure error =>
    exact .failure error
  | command c =>
    exact .command c.label c.request (.refl c.queue.toList)

/-- One block and its counterpart make the same of effects that are the same to observers. -/
theorem pass_block {a b : Effect S} (hab : Effect.Rearranged M a b) {first second : List (Link S)}
    (h : Interchangeable M first second) :
    Action.Alike (Effect.Rearranged M) (a.pass M (.ofList first)) (b.pass M (.ofList second)) := by
  cases hab with
  | success value =>
    exact .of_eq refl (h.success value)
  | failure error =>
    rw [pass_failure, pass_failure, passError_ofList, passError_ofList, h.error]
    exact .of_eq refl rfl
  | command label request hqueue =>
    -- Nothing is called: the blocks stand at the end of the queues.
    rw [pass_command, pass_command]
    refine .pure (.command label request ?_)
    rw [Deque.toList_join, Deque.toList_join, Deque.toList_ofList, Deque.toList_ofList]
    exact hqueue.append (.of_interchangeable h)

theorem pass {links links' : List (Link S)} (h : Deferred.Rearranged M links links')
    {a b : Effect S} (hab : Effect.Rearranged M a b) :
    Action.Alike (Effect.Rearranged M) (a.pass M (.ofList links)) (b.pass M (.ofList links')) := by
  induction h generalizing a b with
  | nil =>
    rw [pass_nil, pass_nil]
    exact .pure hab
  | block h _ ih =>
    rw [pass_append, pass_append]
    exact (hab.pass_block h).bind fun _ _ hnext => ih hnext

theorem passAnswer {links links' : List (Link S)} (h : Deferred.Rearranged M links links')
    (answer : Except ResumeError (Effect S)) :
    Action.Alike (Answers (Effect.Rearranged M)) (passAnswer M answer (.ofList links))
      (passAnswer M answer (.ofList links')) := by
  cases answer with
  | ok e =>
    exact (pass h (refl e)).map fun _ _ hnext => .resumed hnext
  | error reason =>
    exact .pure (.refused reason)

/-- Whatever is observed of rearranged effects, they answer alike. -/
theorem resume {a b : Effect S} (hab : Effect.Rearranged M a b) (r : S.ResultType)
    (result : S.Result r) :
    Action.Alike (Answers (Effect.Rearranged M)) (a.resume M r result) (b.resume M r result) := by
  cases hab with
  | success value =>
    exact .pure (.refused .notSuspended)
  | failure error =>
    exact .pure (.refused .notSuspended)
  | @command label request queue queue' hqueue =>
    -- The head is the same on both sides, and only its answer gets to the queues.
    have hanswer := fun answer => passAnswer hqueue answer
    simp only [Deque.ofList_toList] at hanswer
    rw [Effect.resume, Effect.resume, Command.resume_eq_bare,
      Command.resume_eq_bare M ⟨_, _, queue'⟩]
    exact (Action.Alike.of_eq Eq.refl rfl).bind fun answer _ heq => heq ▸ hanswer answer

/-- What rearranged commands lead to. -/
inductive Advances (M : Meaning S) : Advance S → Advance S → Prop where
  | next {a b : Effect S} (h : Effect.Rearranged M a b) : Advances M (.next a) (.next b)
  | fault (phase : Phase) (error : S.Error) : Advances M (.fault phase error) (.fault phase error)

theorem advance (label : Label) (request : Request S) {queue queue' : Deque (Link S)}
    (h : Deferred.Rearranged M queue.toList queue'.toList) :
    Action.Alike (Advances M) (Command.advance M ⟨label, request, queue⟩)
      (Command.advance M ⟨label, request, queue'⟩) := by
  rw [Command.advance_eq_bare, Command.advance_eq_bare M ⟨_, _, queue'⟩]
  refine (Action.Alike.of_eq Eq.refl rfl).bind fun a _ heq => heq ▸ ?_
  cases a with
  | next e =>
    have hpass := pass h (refl e)
    simp only [Deque.ofList_toList] at hpass
    exact hpass.map fun _ _ hnext => .next hnext
  | fault phase error =>
    have herror : passError error queue = passError error queue' := h.passErrorAlong_eq error
    show Action.Alike _ (Advance.fault phase <$> passError error queue)
      (Advance.fault phase <$> passError error queue')
    rw [herror]
    exact (Action.Alike.of_eq Eq.refl rfl).map fun _ _ heq => heq ▸ .fault phase _

theorem runFor (I : Interpreter S) (span : Option String) (limit : Nat) {a b : Effect S}
    (hab : Effect.Rearranged I.meaning a b) (trace : Option Trace) :
    I.runFor span limit a trace = I.runFor span limit b trace := by
  induction limit generalizing a b trace with
  | zero =>
    cases hab <;> rfl
  | succ limit ih =>
    cases hab with
    | success value =>
      rfl
    | failure error =>
      rfl
    | command label request hqueue =>
      rw [Interpreter.runFor, Interpreter.runFor]
      refine bind_congr fun _ => Action.Alike.eq ?_
      refine (advance label request hqueue).bind fun _ _ hadvance => ?_
      cases hadvance with
      | next hnext =>
        exact .of_eq Eq.refl (ih hnext _)
      | fault phase error =>
        exact .of_eq Eq.refl rfl

theorem bisimulation (M : Meaning S) : Bisimulation M (Effect.Rearranged M) := by
  constructor
  · intro a b hab
    cases hab <;> rfl
  · intro a b hab
    cases hab <;> rfl
  · intro a b hab r result
    exact hab.resume r result
  · intro a b hab observe limit
    have hrun := runFor ⟨M, observe⟩ none limit hab (some .empty)
    simp only [Interpreter.runRecorded, Interpreter.recording, hrun]

/-- A rearranged queue makes no difference to any observer. -/
theorem indistinguishable {a b : Effect S} (hab : Effect.Rearranged M a b) :
    Indistinguishable M a b :=
  ⟨Effect.Rearranged M, bisimulation M, hab⟩

end Effect.Rearranged

end Deferred
