import Deferred.Proofs.Bifunctor
import Deferred.Proofs.ChainLaws
import Deferred.Proofs.Handling
import Deferred.Proofs.Rehearsal

/-!
# Refusal — which results an effect takes when it is resumed by hand

Whether a result is taken is decided by the head of the effect alone: the label and the type of
results of the operation that is waited for.  Links and what is inherited of them stand behind the
head, and a new head comes with an effect that a function has returned.

* `Effect.head?`, `Effect.refusal?` — the head, and the refusal that it leads to;
* `Effect.resume_of_refusal`, `Effect.resume_of_taken` — results are refused and taken accordingly;
* `Command.foldlM_link`, `Command.runAll` — links and steps are put behind the head of a command;
* `Attributed` — an effect together with the effect that a function has returned last;
* `Attributed.Holds.handle` — after any sequence of handlings both have the same head;
* `Effect.resume_refuses` — all of this.
-/

namespace Deferred

variable {S : Signature}

/-! ## Heads -/

namespace Effect

/-- The label and the type of results of the operation that is waited for. -/
def head? : Effect S → Option (Label × S.ResultType)
  | .command c => some (c.label, c.request.result)
  | _ => none

/-- The reason for which a result of a type is refused; `none` if it is taken. -/
def refusal? (e : Effect S) (r : S.ResultType) : Option ResumeError :=
  match e.head? with
  | none => some .notSuspended
  | some (label, expected) =>
      if r = expected then none
      else some (.typeMismatch label (S.typeName expected) (S.typeName r))

variable {e : Effect S} {r : S.ResultType} {reason : ResumeError}

/-- A result is refused before anything is called. -/
theorem resume_of_refusal (h : e.refusal? r = some reason) (M : Meaning S)
    (result : S.Result r) : e.resume M r result = pure (.error reason) := by
  cases e with
  | success value =>
    cases h
    rfl
  | failure error =>
    cases h
    rfl
  | command c =>
    show c.resume M r result = _
    unfold Command.resume
    by_cases hr : r = c.request.result
    · have hnone : (Effect.command c).refusal? r = none := if_pos hr
      cases hnone.symm.trans h
    · have hsome : (Effect.command c).refusal? r = some _ := if_neg hr
      cases hsome.symm.trans h
      rw [dif_neg hr]

theorem resume_of_taken (h : e.refusal? r = none) (M : Meaning S) (result : S.Result r)
    (w : S.World) : ∃ next w', e.resume M r result w = (.ok next, w') := by
  cases e with
  | success value => cases h
  | failure error => cases h
  | command c =>
    have hr : r = c.request.result := by
      by_contra hne
      have hsome : (Effect.command c).refusal? r = some _ := if_neg hne
      cases hsome.symm.trans h
    subst hr
    rcases happly : c.request.continuation.apply M result w with ⟨outcome, w₁⟩
    cases outcome with
    | ok next => exact ⟨_, _, Command.resume_of_ok happly⟩
    | error fault => exact ⟨_, _, Command.resume_of_error happly⟩

theorem refusal?_eq_notSuspended_iff :
    e.refusal? r = some .notSuspended ↔ e.outcome?.isSome := by
  cases e with
  | success value => exact ⟨fun _ => rfl, fun _ => rfl⟩
  | failure error => exact ⟨fun _ => rfl, fun _ => rfl⟩
  | command c =>
    constructor
    · intro h
      simp [refusal?, head?] at h
    · intro h
      cases h

theorem refusal?_eq_typeMismatch_iff {label : Label} {expected found : String} :
    e.refusal? r = some (.typeMismatch label expected found) ↔
      ∃ expects, e.head? = some (label, expects) ∧ r ≠ expects ∧
        expected = S.typeName expects ∧ found = S.typeName r := by
  unfold refusal?
  cases e.head? with
  | none =>
    constructor
    · intro h
      cases h
    · rintro ⟨_, hhead, -⟩
      cases hhead
  | some head =>
    rcases head with ⟨label', expects⟩
    constructor
    · intro h
      by_cases hr : r = expects
      · cases (if_pos hr).symm.trans h
      · cases (if_neg hr).symm.trans h
        exact ⟨expects, rfl, hr, rfl, rfl⟩
    · rintro ⟨_, hhead, hr, rfl, rfl⟩
      cases hhead
      exact if_neg hr

theorem refusal?_eq_none_iff : e.refusal? r = none ↔ ∃ label, e.head? = some (label, r) := by
  unfold refusal?
  cases e.head? with
  | none =>
    constructor
    · intro h
      cases h
    · rintro ⟨_, hhead⟩
      cases hhead
  | some head =>
    rcases head with ⟨label, expects⟩
    constructor
    · intro h
      by_cases hr : r = expects
      · exact ⟨label, by rw [hr]⟩
      · cases (if_neg hr).symm.trans h
    · rintro ⟨_, hhead⟩
      cases hhead
      exact if_pos rfl

/-- What comes of a result depends on whether it is refused, and on nothing else. -/
theorem resume_eq_error_iff {M : Meaning S} {result : S.Result r} {w : S.World} :
    (e.resume M r result w).1 = .error reason ↔ e.refusal? r = some reason := by
  cases hrefusal : e.refusal? r with
  | none =>
    rcases resume_of_taken hrefusal M result w with ⟨next, w', hresume⟩
    rw [hresume]
    constructor
    · intro h
      cases h
    · intro h
      cases h
  | some reason' =>
    rw [resume_of_refusal hrefusal M result]
    constructor
    · intro h
      cases h
      rfl
    · intro h
      cases h
      rfl

theorem resume_eq_ok_iff {M : Meaning S} {result : S.Result r} {w : S.World} :
    (∃ next, (e.resume M r result w).1 = .ok next) ↔ e.refusal? r = none := by
  constructor
  · rintro ⟨next, hnext⟩
    by_contra hsome
    rcases Option.ne_none_iff_exists'.1 hsome with ⟨reason, hreason⟩
    cases hnext.symm.trans (resume_eq_error_iff.2 hreason)
  · intro h
    rcases resume_of_taken h M result w with ⟨next, w', hresume⟩
    exact ⟨next, by rw [hresume]⟩

end Effect

/-! ## Links behind a head -/

namespace Command

/-- Links are put behind the head of a command, and nothing is called. -/
theorem foldlM_link (M : Meaning S) (links : List (Link S)) (c : Command S) :
    ∃ c', links.foldlM (Effect.link M) (.command c) = pure (.command c') ∧
      c'.label = c.label ∧ c'.request = c.request := by
  refine ⟨c.inherit (.ofList links), ?_, rfl, rfl⟩
  rw [Effect.foldlM_link, Effect.pass_command]

/-- So are the steps of a pipeline. -/
theorem runAll (M : Meaning S) (steps : List (Step S)) (c : Command S) :
    ∃ c', Step.runAll M steps (.command c) = pure (.command c') ∧
      c'.label = c.label ∧ c'.request = c.request := by
  refine ⟨c.inherit (.ofList (steps.map .onSuccess)), ?_, rfl, rfl⟩
  rw [Step.runAll_eq_pass, Effect.pass_command]

end Command

/-! ## The effect that was returned last -/

/-- An effect, and the effect on the way to it that a function of a link or a continuation has
returned last. -/
structure Attributed (S : Signature) where
  effect : Effect S
  source : Effect S

namespace Attributed

/-- An effect as a function has returned it. -/
def returned (e : Effect S) : Attributed S := ⟨e, e⟩

/-- Apply a link.  If its function is called on a value, the effect is one that this function has
returned; otherwise it is made of the effect that was there. -/
def link (M : Meaning S) (a : Attributed S) (l : Link S) : Action S (Attributed S) :=
  match a.effect, l with
  | .success value, .onSuccess step => returned <$> step.run M value
  | e, l => do return ⟨← e.link M l, a.source⟩

/-- Apply links in order. -/
def follow (M : Meaning S) (a : Attributed S) (links : List (Link S)) : Action S (Attributed S) :=
  links.foldlM (link M) a

/-- Feed a result by hand.  The continuation returns an effect, which follows the queue. -/
def resume (M : Meaning S) (a : Attributed S) (r : S.ResultType) (result : S.Result r) :
    Action S (Except ResumeError (Attributed S)) :=
  match a.effect with
  | .command c =>
      if h : r = c.request.result then do
        match ← c.request.continuation.apply M (h ▸ result) with
        | .ok next => return .ok (← (returned next).follow M c.queue.toList)
        | .error fault => return .ok (returned (.failure (← passError fault c.queue)))
      else
        return .error (.typeMismatch c.label (S.typeName c.request.result) (S.typeName r))
  | _ => return .error .notSuspended

/-- The second effect is the first one of a pair whose two effects have the same head. -/
def Holds (a : Attributed S) (e : Effect S) : Prop :=
  a.effect = e ∧ a.effect.head? = a.source.head?

section

variable {M : Meaning S} {a : Attributed S} {e : Effect S}

theorem holds_returned (e : Effect S) : (returned e).Holds e := ⟨rfl, rfl⟩

/-- A link that is put behind a command changes no head, and a function that is called returns an
effect with a head of its own. -/
theorem Holds.link (h : a.Holds e) (l : Link S) :
    Action.Alike Holds (a.link M l) (e.link M l) := by
  rcases a with ⟨effect, source⟩
  rcases h with ⟨rfl, hhead⟩
  cases effect with
  | success value =>
    cases l with
    | onSuccess step =>
      intro w
      exact ⟨holds_returned _, rfl⟩
    | onError f =>
      exact .pure ⟨rfl, hhead⟩
  | failure error =>
    cases l with
    | onSuccess step =>
      exact .pure ⟨rfl, hhead⟩
    | onError f =>
      intro w
      exact ⟨⟨rfl, hhead⟩, rfl⟩
  | command c =>
    cases l with
    | onSuccess step =>
      exact .pure ⟨rfl, hhead⟩
    | onError f =>
      exact .pure ⟨rfl, hhead⟩

theorem Holds.follow (h : a.Holds e) (links : List (Link S)) :
    Action.Alike Holds (a.follow M links) (links.foldlM (Effect.link M) e) := by
  induction links generalizing a e with
  | nil =>
    exact .pure h
  | cons l rest ih =>
    rw [Attributed.follow, List.foldlM_cons, List.foldlM_cons]
    exact (h.link l).bind fun _ _ hnext => ih hnext

/-- A result that is taken leads to an effect that the continuation has returned, or a function of
the queue behind it. -/
theorem Holds.resume (h : a.Holds e) (r : S.ResultType) (result : S.Result r) :
    Action.Alike (OrFault Holds) (a.resume M r result) (e.resume M r result) := by
  rcases a with ⟨effect, source⟩
  rcases h with ⟨rfl, -⟩
  cases effect with
  | success value =>
    exact .pure (.fault _)
  | failure error =>
    exact .pure (.fault _)
  | command c =>
    -- The source so far is forgotten: the head that was resumed is gone.
    unfold Attributed.resume Effect.resume Command.resume
    by_cases hr : r = c.request.result
    · subst hr
      simp only [↓reduceDIte]
      have houtcome : Action.Alike Eq (c.request.continuation.apply M result)
          (c.request.continuation.apply M result) := .of_eq Eq.refl rfl
      refine houtcome.bind fun outcome _ heq => heq ▸ ?_
      cases outcome with
      | ok next =>
        have hqueue := (holds_returned next).follow (M := M) c.queue.toList
        rw [Effect.foldlM_link, Deque.ofList_toList] at hqueue
        exact hqueue.map fun _ _ hlast => .value hlast
      | error fault =>
        have herror : Action.Alike Eq (passError fault c.queue) (passError fault c.queue) :=
          .of_eq Eq.refl rfl
        refine herror.bind fun _ _ heq => ?_
        exact heq ▸ .pure (.value (holds_returned _))
    · simp only [hr, ↓reduceDIte]
      exact .pure (.fault _)

end

section

variable [BEq S.Value] [BEq S.Error]

/-- Do one thing with an effect. -/
def act (M : Meaning S) (a : Attributed S) :
    Handling S → Action S (Answer S.Value S.Error × Attributed S)
  | .andThen step => return (.none, ← a.link M (.onSuccess step))
  | .map f => return (.none, ← a.link M (.onSuccess (.map f)))
  | .ensure holds error => return (.none, ← a.link M (.onSuccess (.ensure holds error)))
  | .mapErr f => return (.none, ← a.link M (.onError f))
  | .pipeline rest => return (.none, ← a.follow M (rest.map .onSuccess))
  | .equals other => return (.equal (a.effect == other), a)
  | .label => return (.label a.effect.label?, a)
  | .shown value error => return (.shown (a.effect.shown value error), a)
  | .outcome => return (.outcome a.effect.outcome?, a)
  | .resume r result => do
      match ← a.resume M r result with
      | .ok next => return (.none, next)
      | .error reason => return (.refused reason, a)

/-- Do things with an effect in order. -/
def handle (M : Meaning S) :
    List (Handling S) → Attributed S → Action S (List (Answer S.Value S.Error) × Attributed S)
  | [], a => return ([], a)
  | h :: rest, a => do
      let (answer, next) ← a.act M h
      let (answers, last) ← handle M rest next
      return (answer :: answers, last)

/-- The same was found out, and the effects have the same head as those that were returned. -/
def Same {α : Type} (x : α × Attributed S) (y : α × Effect S) : Prop :=
  x.1 = y.1 ∧ x.2.Holds y.2

variable {M : Meaning S} {a : Attributed S} {e : Effect S}

theorem Holds.act (ha : a.Holds e) (h : Handling S) :
    Action.Alike Same (a.act M h) (h.act M e) := by
  cases h with
  | andThen step =>
    exact (ha.link (.onSuccess step)).map fun _ _ hnext => ⟨rfl, hnext⟩
  | map f =>
    exact (ha.link (.onSuccess (.map f))).map fun _ _ hnext => ⟨rfl, hnext⟩
  | ensure holds error =>
    exact (ha.link (.onSuccess (.ensure holds error))).map fun _ _ hnext => ⟨rfl, hnext⟩
  | mapErr f =>
    exact (ha.link (.onError f)).map fun _ _ hnext => ⟨rfl, hnext⟩
  | pipeline rest =>
    have hrest := ha.follow (M := M) (rest.map .onSuccess)
    rw [Effect.foldlM_link, ← Step.runAll_eq_pass] at hrest
    exact hrest.map fun _ _ hnext => ⟨rfl, hnext⟩
  | equals other =>
    exact .pure ⟨by rw [ha.1], ha⟩
  | label =>
    exact .pure ⟨by rw [ha.1], ha⟩
  | shown value error =>
    exact .pure ⟨by rw [ha.1], ha⟩
  | outcome =>
    exact .pure ⟨by rw [ha.1], ha⟩
  | resume r result =>
    refine (ha.resume r result).bind fun _ _ hanswer => ?_
    cases hanswer with
    | fault reason =>
      exact .pure ⟨rfl, ha⟩
    | value hnext =>
      exact .pure ⟨rfl, hnext⟩

/-- Whatever is done with an effect, the head is that of the effect that a function has returned
last. -/
theorem Holds.handle (ha : a.Holds e) (hs : List (Handling S)) :
    Action.Alike Same (Attributed.handle M hs a) (e.handle M hs) := by
  induction hs generalizing a e with
  | nil =>
    exact .pure ⟨rfl, ha⟩
  | cons h rest ih =>
    refine (ha.act h).bind fun _ _ hfirst => ?_
    refine (ih hfirst.2).bind fun _ _ hrest => ?_
    exact .pure ⟨congrArg₂ List.cons hfirst.1 hrest.1, hrest.2⟩

end

end Attributed

/-! ## All histories -/

/-- Of a result that is fed to an effect by hand.

It is refused for want of a pending operation exactly by outcomes, and for its type exactly by
commands that expect another one, with the label and the type of their heads; otherwise an effect
comes of it.  When it is refused, nothing has been called, whatever the functions behind the names
are.  Links and steps of a pipeline that are put behind a command leave its label and its request as
they are.  And after any sequence of handlings the head is that of the effect which a function of a
link or a continuation has returned last, so a refusal names its label and its type. -/
theorem Effect.resume_refuses [BEq S.Value] [BEq S.Error] (M : Meaning S) :
    (∀ (e : Effect S) (r : S.ResultType) (result : S.Result r) (w : S.World),
      ((e.resume M r result w).1 = .error .notSuspended ↔ e.outcome?.isSome) ∧
      (∀ label expected found,
        (e.resume M r result w).1 = .error (.typeMismatch label expected found) ↔
          ∃ expects, e.head? = some (label, expects) ∧ r ≠ expects ∧
            expected = S.typeName expects ∧ found = S.typeName r) ∧
      ((∃ next, (e.resume M r result w).1 = .ok next) ↔
        ∃ label, e.head? = some (label, r)) ∧
      ∀ reason, (e.resume M r result w).1 = .error reason →
        ∀ M' : Meaning S, e.resume M' r result = pure (.error reason)) ∧
    (∀ (c : Command S) (links : List (Link S)) (steps : List (Step S)),
      (∃ c', links.foldlM (Effect.link M) (.command c) = pure (.command c') ∧
        c'.label = c.label ∧ c'.request = c.request) ∧
      ∃ c', Step.runAll M steps (.command c) = pure (.command c') ∧
        c'.label = c.label ∧ c'.request = c.request) ∧
    ∀ (e : Effect S) (hs : List (Handling S)) (w : S.World),
      let x := Attributed.handle M hs (.returned e) w
      let y := e.handle M hs w
      x.1.1 = y.1.1 ∧ x.1.2.effect = y.1.2 ∧ x.2 = y.2 ∧ y.1.2.head? = x.1.2.source.head? ∧
      ∀ (r : S.ResultType) (result : S.Result r) (w' : S.World) (label : Label)
        (expected found : String),
        (y.1.2.resume M r result w').1 = .error (.typeMismatch label expected found) →
        ∃ c, x.1.2.source = .command c ∧ label = c.label ∧
          expected = S.typeName c.request.result ∧ found = S.typeName r := by
  refine ⟨fun e r result w => ⟨?_, ?_, ?_, ?_⟩, fun c links steps => ?_, fun e hs w => ?_⟩
  · rw [resume_eq_error_iff]
    exact refusal?_eq_notSuspended_iff
  · intro label expected found
    rw [resume_eq_error_iff]
    exact refusal?_eq_typeMismatch_iff
  · rw [resume_eq_ok_iff]
    exact refusal?_eq_none_iff
  · intro reason hreason M'
    exact resume_of_refusal (resume_eq_error_iff.1 hreason) M' result
  · exact ⟨c.foldlM_link M links, c.runAll M steps⟩
  · intro x y
    rcases (Attributed.holds_returned e).handle (M := M) hs w with
      ⟨⟨hanswers, heffect, hhead⟩, hworld⟩
    have hhead : y.1.2.head? = x.1.2.source.head? := heffect ▸ hhead
    refine ⟨hanswers, heffect, hworld, hhead, ?_⟩
    intro r result w' label expected found hrefused
    have hmismatch := refusal?_eq_typeMismatch_iff.1 (resume_eq_error_iff.1 hrefused)
    rcases hmismatch with ⟨expects, hlast, -, rfl, rfl⟩
    rw [hhead] at hlast
    cases hsource : x.1.2.source with
    | success value =>
      rw [hsource] at hlast
      cases hlast
    | failure error =>
      rw [hsource] at hlast
      cases hlast
    | command c =>
      rw [hsource] at hlast
      cases hlast
      exact ⟨c, rfl, rfl, rfl, rfl⟩

end Deferred
