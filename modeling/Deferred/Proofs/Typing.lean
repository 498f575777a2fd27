import Deferred.Proofs.ChainLaws
import Deferred.Typed.Pipeline

/-!
# Typing — every box is opened as what it holds

A queue holds no types, and no type of its own is checked when a link is put behind it.  That it
fits is an invariant: the links form a path, from the types of what the operation leads to, to the
types of the effect.  A step changes the type of values along the path, and a transformation that
of errors.  A success skips transformations and an error skips steps, so both arrive at the end of
the path with the type that the effect has there.

There are no subtypes: a box holds a value of one code, and of no other.

* `Opens` — a computation that opens no box as another type than it holds;
* `Step.HasType`, `Link.HasType`, `Path` — steps, links and queues with their types;
* `Request.HasType`, `Command.HasType`, `Effect.HasType` — the invariant;
* `Meaning.Sound` — names that stand for effects of their types;
* `Effect.HasType.pass`, `passError_opens`, `Command.HasType.resume`, `Command.HasType.advance`,
  `Effect.HasType.runFor` — whatever moves an effect keeps the invariant and opens boxes as what
  they hold.
-/

namespace Deferred.Typed

variable {S : Signature}

/-! ## Computations that open boxes -/

/-- No box is opened as another type than it holds, and the value has a property. -/
def Opens {α : Type} (P : α → Prop) (x : Act S α) : Prop :=
  ∀ checked : Checked S, (x checked).2.mismatches = checked.mismatches ∧ P (x checked).1

namespace Opens

variable {α β : Type} {P : α → Prop} {Q : β → Prop}

theorem pure {a : α} (h : P a) : Opens (S := S) P (Pure.pure a) :=
  fun _ => ⟨rfl, h⟩

theorem bind {x : Act S α} {f : α → Act S β} (hx : Opens P x) (hf : ∀ a, P a → Opens Q (f a)) :
    Opens Q (x >>= f) := by
  intro checked
  rcases hx checked with ⟨hmismatches, hvalue⟩
  rcases hf _ hvalue (x checked).2 with ⟨hrest, hlast⟩
  exact ⟨hrest.trans hmismatches, hlast⟩

theorem map {x : Act S α} {f : α → β} (hx : Opens P x) (h : ∀ a, P a → Q (f a)) :
    Opens Q (f <$> x) :=
  fun checked => ⟨(hx checked).1, h _ (hx checked).2⟩

theorem mono {P' : α → Prop} {x : Act S α} (hx : Opens P x) (h : ∀ a, P a → P' a) :
    Opens P' x :=
  fun checked => ⟨(hx checked).1, h _ (hx checked).2⟩

theorem lift (act : StateM S.World α) : Opens (S := S) (fun _ => True) (Typed.lift act) :=
  fun _ => ⟨rfl, trivial⟩

/-- A box that is opened as the type it holds. -/
theorem unbox {t : S.types.Ty} (x : S.types.El t) {next : S.types.El t → Act S α} {other : α}
    (h : Opens P (next x)) : Opens P (Typed.unbox (Boxed.mk t x) t next other) := by
  unfold Typed.unbox
  rw [Boxed.as?_mk]
  exact h

end Opens

/-! ## Types of queues -/

/-- A step from values of type `a` to effects of `v` and `e`. -/
inductive Step.HasType : S.types.Ty → S.types.Ty → S.types.Ty → Deferred.Step S.untyped → Prop where
  | call {a v e : S.types.Ty} (f : S.Fn a v e) : HasType a v e (Step.call f).untyped
  | map {a v e : S.types.Ty} (f : S.types.El a → StateM S.World (S.types.El v)) :
      HasType a v e (Step.map f : Step S a v e).untyped
  | ensure {a e : S.types.Ty} (holds : S.types.El a → StateM S.World Bool)
      (error : StateM S.World (S.types.El e)) : HasType a a e (Step.ensure holds error).untyped

/-- A link that takes outcomes of the first two types and gives those of the last two.  A step
leaves errors as they are, and a transformation values. -/
inductive Link.HasType :
    S.types.Ty → S.types.Ty → Deferred.Link S.untyped → S.types.Ty → S.types.Ty → Prop where
  | onSuccess {v w e : S.types.Ty} {step : Deferred.Step S.untyped}
      (h : Step.HasType v w e step) : HasType v e (.onSuccess step) w e
  | onError {v e e' : S.types.Ty} (f : S.types.El e → StateM S.World (S.types.El e')) :
      HasType v e (.onError (transform f)) v e'

/-- Links of which each takes what the one before it gives. -/
inductive Path :
    S.types.Ty → S.types.Ty → List (Deferred.Link S.untyped) → S.types.Ty → S.types.Ty → Prop where
  | nil {v e : S.types.Ty} : Path v e [] v e
  | cons {v e v₁ e₁ w f : S.types.Ty} {l : Deferred.Link S.untyped}
      {rest : List (Deferred.Link S.untyped)} (first : Link.HasType v e l v₁ e₁)
      (last : Path v₁ e₁ rest w f) : Path v e (l :: rest) w f

namespace Path

variable {v e v₁ e₁ w f : S.types.Ty} {first rest : List (Deferred.Link S.untyped)}

/-- Paths are put behind each other where they meet. -/
theorem append (hfirst : Path v e first v₁ e₁) (hrest : Path v₁ e₁ rest w f) :
    Path v e (first ++ rest) w f := by
  induction hfirst with
  | nil =>
    exact hrest
  | cons h _ ih =>
    exact .cons h (ih hrest)

theorem singleton {l : Deferred.Link S.untyped} (h : Link.HasType v e l w f) : Path v e [l] w f :=
  .cons h .nil

end Path

/-! ## Types of effects -/

/-- A continuation whose effects, and whose faults if it can fault, are of the given types. -/
inductive Continuation.HasType (v e : S.types.Ty) {r : S.types.Ty} :
    Deferred.Continuation S.untyped r → Prop where
  | total (k : S.Cont r v e) : HasType v e (.total (ContName.mk v e k))
  | fallible (k : S.TryCont r v e) : HasType v e (.fallible (TryContName.mk v e k))

/-- A request whose operation fails with errors of type `e`, and which leads to effects of `v` and
`e`. -/
structure Request.HasType (v e : S.types.Ty) (request : Deferred.Request S.untyped) : Prop where
  operation : Opens
    (fun answer => ∀ error : Boxed S.types, answer = .error error → error.type = e)
    request.operation
  continuation : Continuation.HasType v e request.continuation

/-- The queue of a command is a path from what its request leads to. -/
def Command.HasType (v e : S.types.Ty) (c : Deferred.Command S.untyped) : Prop :=
  ∃ v₀ e₀, Request.HasType v₀ e₀ c.request ∧ Path v₀ e₀ c.queue.toList v e

/-- An effect of values of type `v` and errors of type `e`. -/
inductive Effect.HasType (v e : S.types.Ty) : Deferred.Effect S.untyped → Prop where
  | success (value : S.types.El v) : HasType v e (.success (Boxed.mk v value))
  | failure (error : S.types.El e) : HasType v e (.failure (Boxed.mk e error))
  | command {c : Deferred.Command S.untyped} (h : Command.HasType v e c) : HasType v e (.command c)

/-- A fault of type `e`, or an effect of `v` and `e`. -/
inductive Attempt.HasType (v e : S.types.Ty) :
    Except (Boxed S.types) (Deferred.Effect S.untyped) → Prop where
  | fault (error : S.types.El e) : HasType v e (.error (Boxed.mk e error))
  | value {x : Deferred.Effect S.untyped} (h : Effect.HasType v e x) : HasType v e (.ok x)

/-- Where a command of `v` and `e` leads to. -/
inductive Advance.HasType (v e : S.types.Ty) : Deferred.Advance S.untyped → Prop where
  | next {x : Deferred.Effect S.untyped} (h : Effect.HasType v e x) : HasType v e (.next x)
  | fault (phase : Phase) (error : S.types.El e) : HasType v e (.fault phase (Boxed.mk e error))

/-- A run that has come to an end has a result of `v` and `e`. -/
def Finished.HasType (v e : S.types.Ty) (finished : Option (Finished S.untyped)) : Prop :=
  ∀ f, finished = some f → ∃ result, f.result = boxResult v e result

/-- The effect underneath is of the types that are written on it. -/
abbrev Effect.Fits {v e : S.types.Ty} (x : Effect S v e) : Prop := Effect.HasType v e x.untyped

/-- An effect fits, if one comes of it. -/
abbrev Fits? {ε : Type} {v e : S.types.Ty} (outcome : Except ε (Effect S v e)) : Prop :=
  ∀ y, outcome = .ok y → y.Fits

/-- The functions of the names open boxes as what they hold, and return effects of their types. -/
structure Meaning.Sound (M : Meaning S) : Prop where
  call : ∀ {a v e : S.types.Ty} (f : S.Fn a v e) (x : S.types.El a),
    Opens Effect.Fits (M.call f x)
  resume : ∀ {r v e : S.types.Ty} (k : S.Cont r v e) (result : S.types.El r),
    Opens Effect.Fits (M.resume k result)
  tryResume : ∀ {r v e : S.types.Ty} (k : S.TryCont r v e) (result : S.types.El r),
    Opens Fits? (M.tryResume k result)

/-! ## Chaining -/

section

variable {v e v₁ e₁ w f : S.types.Ty}

/-- A link that fits the end of a queue. -/
theorem Command.HasType.push {c : Deferred.Command S.untyped} (hc : Command.HasType v e c)
    {l : Deferred.Link S.untyped} (hl : Link.HasType v e l w f) :
    Command.HasType w f (c.push l) := by
  rcases hc with ⟨v₀, e₀, hrequest, hpath⟩
  refine ⟨v₀, e₀, hrequest, ?_⟩
  rw [Deferred.Command.toList_queue_push]
  exact hpath.append (.singleton hl)

/-- What is left of a queue fits behind the queue of a command that was returned on the way. -/
theorem Command.HasType.inherit {c : Deferred.Command S.untyped} (hc : Command.HasType v e c)
    {rest : Deque (Deferred.Link S.untyped)} (hrest : Path v e rest.toList w f) :
    Command.HasType w f (c.inherit rest) := by
  rcases hc with ⟨v₀, e₀, hrequest, hpath⟩
  refine ⟨v₀, e₀, hrequest, ?_⟩
  rw [Deferred.Command.toList_queue_inherit]
  exact hpath.append hrest

theorem transform_opens (g : S.types.El e → StateM S.World (S.types.El w)) (error : S.types.El e) :
    Opens (fun b : Boxed S.types => ∃ error', b = Boxed.mk w error')
      (transform g (Boxed.mk e error)) := by
  refine .unbox error ?_
  exact (Opens.lift (g error)).bind fun error' _ => .pure ⟨error', rfl⟩

theorem Effect.HasType.mapErr {x : Deferred.Effect S.untyped} (hx : Effect.HasType v e x)
    (g : S.types.El e → StateM S.World (S.types.El f)) :
    Opens (Effect.HasType v f) (x.mapErr (transform g)) := by
  cases hx with
  | success value =>
    exact .pure (.success value)
  | failure error =>
    refine (transform_opens g error).bind fun b hb => ?_
    rcases hb with ⟨error', rfl⟩
    exact .pure (.failure error')
  | command hc =>
    exact .pure (.command (hc.push (.onError g)))

end

section

variable {M : Meaning S} (hM : M.Sound) {v e w f : S.types.Ty}

include hM

/-- A step that is handed a value of its type opens it as that. -/
theorem Step.HasType.run {step : Deferred.Step S.untyped} (h : Step.HasType v w e step)
    (x : S.types.El v) : Opens (Effect.HasType w e) (step.run M.untyped (Boxed.mk v x)) := by
  cases h with
  | call f =>
    simp only [Step.call, Deferred.Step.run]
    exact .unbox x ((hM.call f x).bind fun _ hy => .pure hy)
  | map f =>
    simp only [Step.map, Deferred.Step.run]
    have hf : Opens (fun b : Boxed S.types => ∃ value, b = Boxed.mk w value)
        (unbox (Boxed.mk v x) v (fun x => return ⟨w, ← lift (f x)⟩) (Boxed.mk v x)) :=
      .unbox x ((Opens.lift (f x)).bind fun value _ => .pure ⟨value, rfl⟩)
    refine hf.bind fun b hb => ?_
    rcases hb with ⟨value, rfl⟩
    exact .pure (.success value)
  | ensure holds error =>
    simp only [Step.ensure, Deferred.Step.run]
    have hholds : Opens (fun _ => True)
        (unbox (Boxed.mk v x) v (fun x => lift (holds x)) false) := .unbox x (Opens.lift (holds x))
    refine hholds.bind fun b _ => ?_
    cases b with
    | true =>
      exact .pure (.success x)
    | false =>
      rw [if_neg Bool.false_ne_true]
      have herror : Opens (fun b : Boxed S.types => ∃ value, b = Boxed.mk e value)
          (do return Boxed.mk e (← lift error)) :=
        (Opens.lift error).bind fun value _ => .pure ⟨value, rfl⟩
      refine herror.bind fun b hb => ?_
      rcases hb with ⟨value, rfl⟩
      exact .pure (.failure value)

theorem Effect.HasType.andThen {x : Deferred.Effect S.untyped} (hx : Effect.HasType v e x)
    {step : Deferred.Step S.untyped} (h : Step.HasType v w e step) :
    Opens (Effect.HasType w e) (x.andThen M.untyped step) := by
  cases hx with
  | success value =>
    exact h.run hM value
  | failure error =>
    exact .pure (.failure error)
  | command hc =>
    exact .pure (.command (hc.push (.onSuccess h)))

theorem Effect.HasType.link {x : Deferred.Effect S.untyped} (hx : Effect.HasType v e x)
    {l : Deferred.Link S.untyped} (hl : Link.HasType v e l w f) :
    Opens (Effect.HasType w f) (x.link M.untyped l) := by
  cases hl with
  | onSuccess h =>
    exact hx.andThen hM h
  | onError g =>
    exact hx.mapErr g

/-- Along a path every link is handed what it takes.  The induction is on the path, so a success
that skips a transformation goes on as a value of the same type, with errors of another one. -/
theorem Effect.HasType.pass {x : Deferred.Effect S.untyped} (hx : Effect.HasType v e x)
    {queue : Deque (Deferred.Link S.untyped)} (hpath : Path v e queue.toList w f) :
    Opens (Effect.HasType w f) (x.pass M.untyped queue) := by
  rw [← queue.ofList_toList]
  generalize queue.toList = links at hpath
  induction hpath generalizing x with
  | nil =>
    rw [Deferred.Effect.pass_nil]
    exact .pure hx
  | cons hl _ ih =>
    rw [Deferred.Effect.pass_cons]
    exact (hx.link hM hl).bind fun _ hnext => ih hnext

end

section

variable {v e w f : S.types.Ty}

/-- An error skips the steps of a path, and every transformation is handed what it takes. -/
theorem passError_opens {queue : Deque (Deferred.Link S.untyped)}
    (hpath : Path v e queue.toList w f) (error : S.types.El e) :
    Opens (fun b : Boxed S.types => ∃ error', b = Boxed.mk f error')
      (passError (S := S.untyped) (Boxed.mk e error) queue) := by
  unfold passError
  generalize queue.toList = links at hpath
  induction hpath with
  | nil =>
    exact .pure ⟨error, rfl⟩
  | cons hl _ ih =>
    cases hl with
    | onSuccess _ =>
      -- The step would change the type of values, and there is none.
      exact ih error
    | onError g =>
      refine (transform_opens g error).bind fun b hb => ?_
      rcases hb with ⟨error', rfl⟩
      exact ih error'

/-! ## Outcomes that leave a queue -/

/-- An effect of its types is as it was, after its outcome was opened. -/
theorem Effect.HasType.reveal {x : Deferred.Effect S.untyped} (hx : Effect.HasType v e x) :
    (Effect.reveal x : Act S (Effect S v e)) = pure ⟨x⟩ := by
  cases hx with
  | success value =>
    simp [Effect.reveal, unbox, Effect.success]
  | failure error =>
    simp [Effect.reveal, unbox, Effect.failure]
  | command _ =>
    rfl

theorem Effect.reveal_opens {x : Act S (Deferred.Effect S.untyped)}
    (hx : Opens (Effect.HasType v e) x) :
    Opens (Effect.Fits (v := v) (e := e)) (x >>= Effect.reveal) := by
  refine hx.bind fun y hy => ?_
  rw [hy.reveal]
  exact .pure hy

theorem openResult?_boxResult (result : Except (S.types.El e) (S.types.El v)) :
    openResult? v e (boxResult v e result) = some result := by
  cases result with
  | ok x =>
    simp [boxResult, openResult?]
  | error x =>
    simp [boxResult, openResult?]

/-- A result of a run in boxes. -/
def boxFinished (v e : S.types.Ty) :
    Option (Except (S.types.El e) (S.types.El v) × Trace) →
      Option (Except (Boxed S.types) (Boxed S.types) × Trace) :=
  Option.map (Prod.map (boxResult v e) id)

theorem openFinished_boxFinished
    (finished : Option (Except (S.types.El e) (S.types.El v) × Trace)) :
    openFinished v e (boxFinished v e finished) = pure finished := by
  rcases finished with _ | ⟨_ | _, trace⟩
  · rfl
  · simp [boxFinished, boxResult, openFinished, unbox]
  · simp [boxFinished, boxResult, openFinished, unbox]

end

/-! ## Resuming and running -/

section

variable {M : Meaning S} (hM : M.Sound) {v e : S.types.Ty}

include hM

theorem Continuation.HasType.apply {r : S.types.Ty} {k : Deferred.Continuation S.untyped r}
    (hk : Continuation.HasType v e k) (result : S.types.El r) :
    Opens (Attempt.HasType v e) (k.apply M.untyped result) := by
  cases hk with
  | total k =>
    have hnext : Opens (Effect.HasType v e) (M.untyped.resume (ContName.mk v e k) result) :=
      (hM.resume k result).bind fun _ hy => .pure hy
    exact hnext.bind fun _ hy => .pure (.value hy)
  | fallible k =>
    refine (hM.tryResume k result).bind fun outcome houtcome => ?_
    cases outcome with
    | ok y =>
      exact .pure (.value (houtcome y rfl))
    | error error =>
      exact .pure (.fault error)

/-- A result of the right type is handed to the continuation, and what comes of it to the queue. -/
theorem Command.HasType.resume {c : Deferred.Command S.untyped} (hc : Command.HasType v e c)
    (r : S.untyped.ResultType) (result : S.untyped.Result r) :
    Opens (fun answer => ∀ x, answer = .ok x → Effect.HasType v e x)
      (c.resume M.untyped r result) := by
  rcases hc with ⟨v₀, e₀, hrequest, hpath⟩
  unfold Deferred.Command.resume
  -- What the head leads to is of the types that the path begins with, be it an effect or a fault.
  by_cases hr : r = c.request.result
  · rw [dif_pos hr]
    refine (hrequest.continuation.apply hM _).bind fun outcome houtcome => ?_
    cases houtcome with
    | value hx =>
      refine (hx.pass hM hpath).bind fun y hy => .pure ?_
      rintro _ ⟨⟩
      exact hy
    | fault error =>
      refine (passError_opens hpath error).bind fun b hb => .pure ?_
      rcases hb with ⟨error', rfl⟩
      rintro _ ⟨⟩
      exact .failure error'
  · rw [dif_neg hr]
    exact .pure nofun

theorem Effect.HasType.resume {x : Deferred.Effect S.untyped} (hx : Effect.HasType v e x)
    (r : S.untyped.ResultType) (result : S.untyped.Result r) :
    Opens (fun answer => ∀ y, answer = .ok y → Effect.HasType v e y)
      (x.resume M.untyped r result) := by
  cases hx with
  | success value =>
    exact .pure nofun
  | failure error =>
    exact .pure nofun
  | command hc =>
    exact hc.resume hM r result

/-- The same for a result that comes from the operation.  An error of the operation is of the type
that the path begins with, and so is one of the continuation. -/
theorem Command.HasType.advance {c : Deferred.Command S.untyped} (hc : Command.HasType v e c) :
    Opens (Advance.HasType v e) (c.advance M.untyped) := by
  rcases hc with ⟨v₀, e₀, hrequest, hpath⟩
  -- Both halves of a command fault in the same way.
  have hfault : ∀ (phase : Phase) (error : S.types.El e₀),
      Opens (Advance.HasType v e)
        (Deferred.Advance.fault phase <$>
          passError (S := S.untyped) (Boxed.mk e₀ error) c.queue) := by
    intro phase error
    refine (passError_opens hpath error).map fun b hb => ?_
    rcases hb with ⟨error', rfl⟩
    exact .fault phase error'
  refine hrequest.operation.bind fun answer hanswer => ?_
  cases answer with
  | error error =>
    rcases error with ⟨t, error⟩
    cases hanswer _ rfl
    exact hfault .operation error
  | ok result =>
    refine (hrequest.continuation.apply hM result).bind fun outcome houtcome => ?_
    cases houtcome with
    | value hx =>
      exact (hx.pass hM hpath).bind fun _ hy => .pure (.next hy)
    | fault error =>
      exact hfault .continuation error

/-- A run keeps the invariant from one command to the next, so its result is of the types of the
effect that it began with. -/
theorem Effect.HasType.runFor {observe : Event → Act S Unit}
    (hobserve : ∀ event, Opens (fun _ => True) (observe event)) (span : Option String)
    (limit : Nat) {x : Deferred.Effect S.untyped} (hx : Effect.HasType v e x)
    (trace : Option Trace) :
    Opens (Finished.HasType v e) (Interpreter.runFor ⟨M.untyped, observe⟩ span limit x trace) := by
  have hend : ∀ (result : Except (S.types.El e) (S.types.El v)) (trace : Option Trace),
      Opens (S := S) (Finished.HasType v e)
        (pure (some (⟨boxResult v e result, trace⟩ : Finished S.untyped))) := by
    intro result trace
    refine .pure ?_
    rintro _ ⟨⟩
    exact ⟨result, rfl⟩
  induction limit generalizing x trace with
  | zero =>
    cases hx with
    | success value =>
      exact hend (.ok value) trace
    | failure error =>
      exact hend (.error error) trace
    | command _ =>
      exact .pure nofun
  | succ limit ih =>
    cases hx with
    | success value =>
      exact hend (.ok value) trace
    | failure error =>
      exact hend (.error error) trace
    | @command c hc =>
      rw [Interpreter.runFor]
      refine (hobserve _).bind fun _ _ => ?_
      refine (hc.advance hM).bind fun a ha => ?_
      cases ha with
      | next hy =>
        exact ih hy _
      | fault phase error =>
        exact (hobserve _).bind fun _ _ => hend (.error error) _

end

/-! ## Effects that are made and chained -/

section

variable {v w e e' r : S.types.Ty}

/-- The computation underneath opens boxes as what they hold, and so does the one with types. -/
theorem Effect.wrap_opens {x : Act S (Deferred.Effect S.untyped)}
    (hx : Opens (Effect.HasType v e) x) :
    Opens (Effect.Fits (v := v) (e := e)) (do return ⟨← x⟩) :=
  hx.bind fun _ hy => .pure hy

/-- An operation boxes its errors. -/
theorem Request.operation_opens
    (operation : StateM S.World (Except (S.types.El e) (S.types.El r))) :
    Opens (S := S) (fun answer => ∀ error : Boxed S.types, answer = .error error → error.type = e)
      (do return (← lift operation).mapError fun x => Boxed.mk e x) := by
  refine (Opens.lift operation).bind fun answer _ => .pure ?_
  intro error herror
  cases answer with
  | ok _ =>
    cases herror
  | error _ =>
    cases herror
    rfl

theorem Effect.hasType_deferred (label : Label)
    (operation : StateM S.World (Except (S.types.El e) (S.types.El r))) (k : S.Cont r v e) :
    Effect.HasType v e (Effect.deferred label operation k).untyped :=
  .command ⟨v, e, ⟨Request.operation_opens operation, .total k⟩, .nil⟩

theorem Effect.hasType_tryDeferred (label : Label)
    (operation : StateM S.World (Except (S.types.El e) (S.types.El r))) (k : S.TryCont r v e) :
    Effect.HasType v e (Effect.tryDeferred label operation k).untyped :=
  .command ⟨v, e, ⟨Request.operation_opens operation, .fallible k⟩, .nil⟩

/-- Looking at the outcome of an effect opens its box as well. -/
theorem Effect.boxed_outcome? {x : Effect S v e} (hx : x.Fits) :
    x.outcome?.map (boxResult v e) = x.untyped.outcome? := by
  rcases x with ⟨x⟩
  cases hx with
  | success value =>
    exact congrArg (Option.map (boxResult v e)) (openResult?_boxResult (.ok value))
  | failure error =>
    exact congrArg (Option.map (boxResult v e)) (openResult?_boxResult (.error error))
  | command _ =>
    rfl

theorem Effect.mapErr_opens {x : Effect S v e} (hx : x.Fits)
    (g : S.types.El e → StateM S.World (S.types.El e')) :
    Opens Effect.Fits (x.mapErr g) :=
  Effect.wrap_opens (hx.mapErr g)

end

section

variable {M : Meaning S} (hM : M.Sound) {a v w e r : S.types.Ty}

include hM

theorem Effect.andThen_opens {x : Effect S v e} (hx : x.Fits)
    {step : Step S v w e} (h : Step.HasType v w e step.untyped) :
    Opens Effect.Fits (x.andThen M step) :=
  Effect.wrap_opens (hx.andThen hM h)

/-- The steps of a pipeline, as links, are a path from its start value. -/
theorem Pipeline.run_opens {p : Pipeline S a v e}
    (hpath : Path a e (p.untyped.toList.map .onSuccess) v e) (start : S.types.El a) :
    Opens Effect.Fits (p.run M start) := by
  refine Effect.reveal_opens ?_
  unfold Deferred.Pipeline.run
  rw [Deferred.Step.runAll_eq_pass]
  have hstart : Effect.HasType a e (.success (Boxed.mk a start)) := .success start
  refine hstart.pass hM ?_
  rwa [Deque.toList_ofList]

theorem Effect.resume_opens {x : Effect S v e} (hx : x.Fits)
    (result : S.types.El r) :
    Opens Fits? (x.resume M result) := by
  refine (hx.resume hM r result).bind fun answer hanswer => ?_
  cases answer with
  | error _ =>
    exact .pure nofun
  | ok next =>
    have hnext := hanswer next rfl
    show Opens _ (Effect.reveal next >>= fun y => Pure.pure (Except.ok y))
    rw [hnext.reveal]
    refine .pure ?_
    rintro _ ⟨⟩
    exact hnext

/-- A run opens its result as what it holds, so no result is lost. -/
theorem Effect.runRecorded_opens {x : Effect S v e} (hx : x.Fits)
    (limit : Nat) :
    Opens (fun _ => True) (x.runRecorded M limit) ∧
    boxFinished v e <$> x.runRecorded M limit =
      Interpreter.runRecorded ⟨M.untyped, fun _ => pure ()⟩ limit x.untyped := by
  have hrun : Opens (fun boxed => ∃ finished, boxed = boxFinished v e finished)
      (Interpreter.runRecorded ⟨M.untyped, fun _ => pure ()⟩ limit x.untyped) := by
    refine (hx.runFor hM (fun _ => .pure trivial) none limit (some .empty)).bind fun f? hf => ?_
    refine .pure ?_
    cases f? with
    | none =>
      exact ⟨none, rfl⟩
    | some f =>
      rcases hf f rfl with ⟨result, hresult⟩
      refine ⟨some (result, f.trace.getD .empty), ?_⟩
      rw [Option.map_some, hresult]
      rfl
  constructor
  · refine hrun.bind fun boxed hboxed => ?_
    rcases hboxed with ⟨finished, rfl⟩
    rw [openFinished_boxFinished]
    exact .pure trivial
  · funext checked
    rcases (hrun checked).2 with ⟨finished, hboxed⟩
    have hfinished : x.runRecorded M limit checked = (finished,
        (Interpreter.runRecorded ⟨M.untyped, fun _ => pure ()⟩ limit x.untyped checked).2) := by
      unfold Effect.runRecorded
      rw [Action.bind_apply, hboxed, openFinished_boxFinished]
      rfl
    rw [Action.map_apply, hfinished, ← hboxed]
    rfl

end

end Deferred.Typed
