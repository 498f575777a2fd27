import Deferred.Proofs.Bifunctor
import Deferred.Proofs.Erasure
import Deferred.Proofs.Stages

/-!
# Queued — a link that waits in a queue does what it would have done at once

A combinator acts on an outcome at once, and leaves a link behind a command.  The link holds no
types: it is handed a box when its turn comes, while the combinator is handed the value itself.
This file shows that it makes no difference when a link has its turn, nor where a queue of links is
cut.

* `Effect.pass_join`, `passError_join` — a queue behind another one;
* `Command.resume_links` — links that are applied before a result is supplied by hand, or after;
* `Typed.Chaining`, `Typed.Chainings` — a combinator with what it is given, and a list of these,
  with their types;
* `Typed.Unboxed` — effects with types whose outcomes are in no box;
* `Typed.Unboxed.chain` — what a combinator makes of each kind of effect;
* `Typed.Chainings.run_eq` — chaining is passing through the links that are queued for it;
* `Typed.queued_links_act_at_once` — all of it.
-/

namespace Deferred

section

variable {S : Signature}

/-! ## Queues of any links -/

theorem Effect.pass_join (M : Meaning S) (e : Effect S) (first rest : Deque (Link S)) :
    e.pass M (first.join rest) = e.pass M first >>= fun next => next.pass M rest := by
  have hjoin : first.join rest = .ofList (first.toList ++ rest.toList) := Deque.ext (by simp)
  rw [hjoin, pass_append]
  simp only [Deque.ofList_toList]

theorem passError_join (error : S.Error) (first rest : Deque (Link S)) :
    passError error (first.join rest) = passError error first >>= fun e => passError e rest := by
  simp only [passError, Deque.toList_join, passErrorAlong_append]

/-- Apply links one by one to what has come of a result that was supplied by hand.  A refusal stays
as it is. -/
def linkAnswer (M : Meaning S) (links : List (Link S)) :
    Except ResumeError (Effect S) → Action S (Except ResumeError (Effect S))
  | .ok next => do return .ok (← links.foldlM (Effect.link M) next)
  | .error refusal => return .error refusal

theorem linkAnswer_eq_passAnswer (M : Meaning S) (links : List (Link S))
    (answer : Except ResumeError (Effect S)) :
    linkAnswer M links answer = passAnswer M answer (.ofList links) := by
  cases answer with
  | ok next =>
    rw [linkAnswer, passAnswer, Effect.foldlM_link]
  | error refusal =>
    rfl

/-- Links may be applied to a command before a result is supplied by hand, or to what has come of
it. -/
theorem Command.resume_links (M : Meaning S) (c : Command S) (links : List (Link S))
    (r : S.ResultType) (result : S.Result r) :
    (links.foldlM (Effect.link M) (.command c) >>= fun e => e.resume M r result) =
      c.resume M r result >>= linkAnswer M links := by
  calc
    (links.foldlM (Effect.link M) (.command c) >>= fun e => e.resume M r result)
        = (c.inherit (.ofList links)).resume M r result := by
          rw [Effect.foldlM_link, Effect.pass_command, pure_bind]
          rfl
    _ = c.resume M r result >>= fun answer => passAnswer M answer (.ofList links) :=
          resume_inherit M c links r result
    _ = c.resume M r result >>= linkAnswer M links := by
          simp only [← linkAnswer_eq_passAnswer]

end

namespace Typed

variable {S : Signature}

/-! ## Combinators and their links -/

/-- A combinator with what it is given, for effects of the first two types, which become effects of
the last two. -/
inductive Chaining (S : Signature) :
    S.types.Ty → S.types.Ty → S.types.Ty → S.types.Ty → Type where
  | andThen {v w e : S.types.Ty} (g : S.Fn v w e) : Chaining S v e w e
  | map {v w e : S.types.Ty} (g : S.types.El v → StateM S.World (S.types.El w)) : Chaining S v e w e
  | ensure {v e : S.types.Ty} (holds : S.types.El v → StateM S.World Bool)
      (error : StateM S.World (S.types.El e)) : Chaining S v e v e
  | mapErr {v e e' : S.types.Ty} (g : S.types.El e → StateM S.World (S.types.El e')) :
      Chaining S v e v e'

/-- Combinators of which each takes what the one before it gives. -/
inductive Chainings (S : Signature) :
    S.types.Ty → S.types.Ty → S.types.Ty → S.types.Ty → Type where
  | nil {v e : S.types.Ty} : Chainings S v e v e
  | cons {v e v₁ e₁ w f : S.types.Ty} (first : Chaining S v e v₁ e₁)
      (rest : Chainings S v₁ e₁ w f) : Chainings S v e w f

section

variable {v e w f : S.types.Ty}

/-- The link that a combinator leaves behind a command. -/
def Chaining.link : Chaining S v e w f → Deferred.Link S.untyped
  | .andThen g => .onSuccess (Step.call g).untyped
  | @Chaining.map _ v w e g => .onSuccess (Step.map g : Step S v w e).untyped
  | .ensure holds error => .onSuccess (Step.ensure holds error).untyped
  | .mapErr g => .onError (transform g)

/-- The links that combinators leave behind a command, in order. -/
def Chainings.links {v e w f : S.types.Ty} : Chainings S v e w f → List (Deferred.Link S.untyped)
  | .nil => []
  | .cons first rest => first.link :: rest.links

/-- Apply a combinator to an effect. -/
def Effect.chain (M : Meaning S) (x : Effect S v e) :
    Chaining S v e w f → Act S (Effect S w f)
  | .andThen g => x.andThen M (.call g)
  | .map g => x.map M g
  | .ensure holds error => x.ensure M holds error
  | .mapErr g => x.mapErr g

/-- Apply combinators to an effect, one after the other. -/
def Chainings.run (M : Meaning S) {v e w f : S.types.Ty} :
    Chainings S v e w f → Effect S v e → Act S (Effect S w f)
  | .nil, x => return x
  | .cons first rest, x => do rest.run M (← x.chain M first)

theorem Chaining.hasType (c : Chaining S v e w f) : Link.HasType v e c.link w f := by
  cases c with
  | andThen g =>
    exact .onSuccess (.call g)
  | map g =>
    exact .onSuccess (.map g)
  | ensure holds error =>
    exact .onSuccess (.ensure holds error)
  | mapErr g =>
    exact .onError g

theorem Chainings.path {v e w f : S.types.Ty} (cs : Chainings S v e w f) :
    Path v e cs.links w f := by
  induction cs with
  | nil =>
    exact .nil
  | cons first rest ih =>
    exact .cons first.hasType ih

/-- Underneath, a combinator applies its link. -/
theorem Effect.chain_eq (M : Meaning S) (x : Effect S v e) (c : Chaining S v e w f) :
    x.chain M c = Effect.mk <$> x.untyped.link M.untyped c.link := by
  cases c <;> rfl

/-- Underneath, a list of combinators is a queue of their links. -/
theorem Chainings.run_eq (M : Meaning S) {v e w f : S.types.Ty} (cs : Chainings S v e w f)
    (x : Effect S v e) :
    cs.run M x = Effect.mk <$> x.untyped.pass M.untyped (.ofList cs.links) := by
  induction cs with
  | nil =>
    rw [run, links, Deferred.Effect.pass_nil, map_pure]
  | cons first rest ih =>
    calc
      (Chainings.cons first rest).run M x
          = x.chain M first >>= fun y => rest.run M y := rfl
      _ = x.untyped.link M.untyped first.link >>= fun y => rest.run M ⟨y⟩ := by
            rw [Effect.chain_eq, bind_map_left]
      _ = x.untyped.link M.untyped first.link >>= fun y =>
            Effect.mk <$> y.pass M.untyped (.ofList rest.links) := by
            simp only [ih]
      _ = Effect.mk <$> x.untyped.pass M.untyped (.ofList (first.link :: rest.links)) := by
            rw [Deferred.Effect.pass_cons, map_bind]

end

/-! ## Outcomes without boxes -/

/-- An effect of values of type `v` and errors of type `e`, whose outcome is in no box. -/
inductive Unboxed (S : Signature) (v e : S.types.Ty) where
  | success (value : S.types.El v)
  | failure (error : S.types.El e)
  | command (c : Deferred.Command S.untyped)

namespace Unboxed

variable {v e w f : S.types.Ty}

/-- The effect underneath: its outcome is put into a box. -/
def erase : Unboxed S v e → Deferred.Effect S.untyped
  | .success value => .success (Boxed.mk v value)
  | .failure error => .failure (Boxed.mk e error)
  | .command c => .command c

/-- What a combinator makes of an effect of each kind.  A value or an error is handed to its
function, one that it has no function for stays as it is, and a command gets the link. -/
def chain (M : Meaning S) {v e w f : S.types.Ty} :
    Unboxed S v e → Chaining S v e w f → Act S (Effect S w f)
  | .success value, .andThen g => M.call g value
  | .success value, .map g => do return .success (← lift (g value))
  | .success value, .ensure holds error => do
      if ← lift (holds value) then return .success value else return .failure (← lift error)
  | .success value, .mapErr _ => return .success value
  | .failure error, .andThen _ => return .failure error
  | .failure error, .map _ => return .failure error
  | .failure error, .ensure _ _ => return .failure error
  | .failure error, .mapErr g => do return .failure (← lift (g error))
  | .command c, chaining => return ⟨.command (c.push chaining.link)⟩

/-- Opening the box again is all that a link does beyond its combinator. -/
theorem chain_eq (M : Meaning S) (x : Unboxed S v e) (c : Chaining S v e w f) :
    x.chain M c = Effect.mk <$> x.erase.link M.untyped c.link := by
  -- A link with a function opens a box, which holds what the combinator hands to that function.
  cases x with
  | success value =>
    cases c with
    | andThen g =>
      show M.call g value = Effect.mk <$> (Step.call g).untyped.run M.untyped (Boxed.mk v value)
      rw [Step.run_call]
      rfl
    | map g =>
      show _ = Effect.mk <$> (Step.map g : Step S v w e).untyped.run M.untyped (Boxed.mk v value)
      rw [Step.run_map]
      rfl
    | ensure holds error =>
      show _ = Effect.mk <$> (Step.ensure holds error).untyped.run M.untyped (Boxed.mk v value)
      rw [Step.run_ensure, map_bind]
      refine bind_congr fun b => ?_
      cases b <;> rfl
    | mapErr g =>
      rfl
  | failure error =>
    cases c with
    | andThen g =>
      rfl
    | map g =>
      rfl
    | ensure holds _ =>
      rfl
    | mapErr g =>
      show _ = Effect.mk <$> (Deferred.Effect.failure (S := S.untyped) <$>
        transform g (Boxed.mk e error))
      rw [transform_mk]
      rfl
  | command k =>
    cases c <;> rfl

end Unboxed

/-! ## Results that are supplied by hand -/

/-- Computations that go on alike from every value with a property go on alike from one that has
it. -/
theorem Opens.bind_congr {α β : Type} {P : α → Prop} {x : Act S α} {g g' : α → Act S β}
    (hx : Opens P x) (h : ∀ a, P a → g a = g' a) : x >>= g = x >>= g' :=
  funext fun checked => congrFun (h _ (hx checked).2) (x checked).2

section

variable {v e w f : S.types.Ty}

/-- The answer to a result that was supplied by hand, with its outcome opened. -/
def Effect.openAnswer :
    Except ResumeError (Deferred.Effect S.untyped) → Act S (Except ResumeError (Effect S v e))
  | .ok next => do return .ok (← reveal next)
  | .error refusal => return .error refusal

/-- Apply combinators to what has come of a result that was supplied by hand.  A refusal stays as it
is. -/
def Chainings.runAnswer (M : Meaning S) (cs : Chainings S v e w f) :
    Except ResumeError (Effect S v e) → Act S (Except ResumeError (Effect S w f))
  | .ok next => do return .ok (← cs.run M next)
  | .error refusal => return .error refusal

theorem Effect.resume_eq (M : Meaning S) {r : S.types.Ty} (x : Effect S v e)
    (result : S.types.El r) :
    x.resume M result = x.untyped.resume M.untyped r result >>= openAnswer := rfl

variable {M : Meaning S} (hM : M.Sound)

include hM

/-- Passing through the links and opening the outcome is opening the outcome and applying the
combinators. -/
theorem Effect.HasType.openAnswer_pass {next : Deferred.Effect S.untyped}
    (hnext : Effect.HasType v e next) (cs : Chainings S v e w f) :
    passAnswer M.untyped (.ok next) (.ofList cs.links) >>= Effect.openAnswer =
      (Effect.openAnswer (.ok next) : Act S (Except ResumeError (Effect S v e))) >>=
        cs.runAnswer M := by
  have hlast : Opens (Effect.HasType w f) (next.pass M.untyped (.ofList cs.links)) := by
    refine hnext.pass hM ?_
    rw [Deque.toList_ofList]
    exact cs.path
  calc
    passAnswer M.untyped (.ok next) (.ofList cs.links) >>= Effect.openAnswer
        = next.pass M.untyped (.ofList cs.links) >>= fun last =>
            Effect.openAnswer (.ok last) := rfl
    _ = next.pass M.untyped (.ofList cs.links) >>= fun last => pure (.ok ⟨last⟩) := by
          -- What comes out of the queue is of the types at its end.
          refine hlast.bind_congr fun last h => ?_
          rw [Effect.openAnswer, h.reveal, pure_bind]
    _ = Except.ok <$> cs.run M ⟨next⟩ := by
          rw [Chainings.run_eq]
          rfl
    _ = (Effect.openAnswer (.ok next) : Act S (Except ResumeError (Effect S v e))) >>=
          cs.runAnswer M := by
          rw [Effect.openAnswer, hnext.reveal]
          rfl

/-- Combinators may be applied before a result is supplied by hand, or to what has come of it. -/
theorem Command.HasType.resume_run {c : Deferred.Command S.untyped} (hc : Command.HasType v e c)
    (cs : Chainings S v e w f) {r : S.types.Ty} (result : S.types.El r) :
    (cs.run M ⟨.command c⟩ >>= fun y => y.resume M result) =
      (⟨.command c⟩ : Effect S v e).resume M result >>= cs.runAnswer M := by
  calc
    (cs.run M ⟨.command c⟩ >>= fun y => y.resume M result)
        = (c.inherit (.ofList cs.links)).resume M.untyped r result >>= Effect.openAnswer := by
          rw [Chainings.run_eq, Deferred.Effect.pass_command]
          rfl
    _ = c.resume M.untyped r result >>= fun answer =>
          passAnswer M.untyped answer (.ofList cs.links) >>= Effect.openAnswer := by
          have hinherit := Deferred.Command.resume_inherit M.untyped c cs.links r result
          exact (congrArg (· >>= Effect.openAnswer) hinherit).trans (bind_assoc ..)
    _ = c.resume M.untyped r result >>= fun answer =>
          Effect.openAnswer answer >>= cs.runAnswer M := by
          -- What the command leads to is of the types that the combinators begin with.
          refine (hc.resume hM r result).bind_congr fun answer hanswer => ?_
          cases answer with
          | ok next =>
            exact (hanswer next rfl).openAnswer_pass hM cs
          | error refusal =>
            rfl
    _ = (⟨.command c⟩ : Effect S v e).resume M result >>= cs.runAnswer M := by
          rw [Effect.resume_eq, bind_assoc]
          rfl

end

/-! ## Queues and their links -/

/-- A queue may be cut anywhere, and a link that waits in a queue does what it would have done at
once.  Equations of computations say that the same functions are called in the same order: they hold
in every world, also in one where every call is written down.

* Whatever effect passes through one queue behind another one passes through the first and then
  through the second, and so does every error.
* An effect of any kind that passes through a queue of one link comes out as what the combinator of
  the link makes of it at once, and this is what it makes of an outcome that is in no box.
* Links that are applied to a command before a result of any type is supplied by hand give what they
  give when they are applied one by one to what has come of the result.  A result that is refused is
  refused either way, for the same reason.
* The same holds of combinators with types, whose outcomes are opened in between, where names stand
  for effects of their types and the links of the command fit. -/
theorem queued_links_act_at_once :
    (∀ {U : Deferred.Signature} (N : Deferred.Meaning U) (x : Deferred.Effect U)
      (first rest : Deque (Deferred.Link U)),
      x.pass N (first.join rest) = x.pass N first >>= fun y => y.pass N rest) ∧
    (∀ {U : Deferred.Signature} (error : U.Error) (first rest : Deque (Deferred.Link U)),
      passError error (first.join rest) =
        passError error first >>= fun error => passError error rest) ∧
    (∀ {S : Signature} (M : Meaning S) {v e w f : S.types.Ty} (x : Unboxed S v e)
      (c : Chaining S v e w f),
      x.erase.pass M.untyped (.ofList [c.link]) = Effect.untyped <$> x.chain M c ∧
      (⟨x.erase⟩ : Effect S v e).chain M c = x.chain M c) ∧
    (∀ {U : Deferred.Signature} (N : Deferred.Meaning U) (c : Deferred.Command U)
      (links : List (Deferred.Link U)) (r : U.ResultType) (result : U.Result r),
      (links.foldlM (Deferred.Effect.link N) (.command c) >>= fun x => x.resume N r result) =
        c.resume N r result >>= linkAnswer N links) ∧
    (∀ {S : Signature} {M : Meaning S}, M.Sound → ∀ {v e w f r : S.types.Ty}
      {c : Deferred.Command S.untyped}, Command.HasType v e c →
      ∀ (cs : Chainings S v e w f) (result : S.types.El r),
        (cs.run M ⟨.command c⟩ >>= fun y => y.resume M result) =
          (⟨.command c⟩ : Effect S v e).resume M result >>= cs.runAnswer M) := by
  refine ⟨?_, ?_, ?_, ?_, ?_⟩
  · intro U N x first rest
    exact x.pass_join N first rest
  · intro U error first rest
    exact passError_join error first rest
  · intro S M v e w f x c
    constructor
    · rw [Deferred.Effect.pass_singleton, Unboxed.chain_eq, Functor.map_map]
      exact (id_map _).symm
    · rw [Effect.chain_eq, Unboxed.chain_eq]
  · intro U N c links r result
    exact c.resume_links N links r result
  · intro S M hM v e w f r c hc cs result
    exact hc.resume_run hM cs result

end Typed

/-! ## Registration -/

namespace Registration

open Typed (Chaining Chainings)

/-- What the flow puts behind its lookup in detailed wording: errors of the store become problems,
an email with an account is turned down, and anybody else gets one. -/
def behindLookup : Chainings signature Kind.checked Kind.storeError Kind.user Kind.problem :=
  .cons (.mapErr ofStoreError : Chaining signature Kind.checked Kind.storeError _ Kind.problem)
    (.cons (.andThen (S := signature) StepName.requireNew)
      (.cons (.andThen (S := signature) StepName.save) .nil))

theorem lookingUp_bare_hasType (input : Applicant) :
    Typed.Command.HasType (S := signature) Kind.checked Kind.storeError
      (lookingUp .detailed input).bare := by
  have heffect : Typed.Effect.HasType (S := signature) Kind.checked Kind.storeError
      (.command (lookingUp .detailed input).bare) :=
    @Typed.Effect.hasType_deferred signature Kind.checked Kind.storeError Kind.foundUser
      findLabel (Store.find input.email) (ResumeName.beside input _)
  cases heffect with
  | command h =>
    exact h

/-- A lookup that finds nobody leads to the save, whether what the flow has behind it was queued
beforehand or is applied to the answer.  The types of values and of errors change on the way. -/
theorem lookup_found_nobody :
    let M := meaning .detailed
    let c := (lookingUp .detailed ⟨"ada@example.org", "correct horse"⟩).bare
    let bare : Typed.Effect signature Kind.checked Kind.storeError := ⟨.command c⟩
    let nobody : signature.types.El Kind.foundUser := (none : Option User)
    let resumed := behindLookup.run M bare >>= fun x => x.resume M nobody
    M.Sound ∧ Typed.Command.HasType (S := signature) Kind.checked Kind.storeError c ∧
      resumed = bare.resume M nobody >>= behindLookup.runAnswer M ∧
      (resumed opened).1.toOption.bind Typed.Effect.label? = some saveLabel := by
  intro M c bare nobody resumed
  have hM : M.Sound := meaning_sound .detailed
  have hc : Typed.Command.HasType (S := signature) Kind.checked Kind.storeError c :=
    lookingUp_bare_hasType ⟨"ada@example.org", "correct horse"⟩
  refine ⟨hM, hc, ?_, by decide +kernel⟩
  exact Typed.queued_links_act_at_once.2.2.2.2 hM hc behindLookup nobody

end Registration

end Deferred
