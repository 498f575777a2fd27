import Deferred.Proofs.Overlap

/-!
# Wording — what can be seen of the wording of problems

In detailed wording the store gives errors of its own, and a link behind each command makes problems
of them.  In plain wording the store gives problems, and there is no such link.  So the two flows
queue different links behind their commands, box the errors of their operations as different types,
and give the continuations different types.  None of this can be seen from outside, apart from the
texts of the problems.

* `Counterpart` — registrations that wait for the same operation under two policies, or have ended
  alike;
* `Counterpart.resume` — they stay so whatever they are fed by hand, for any two policies;
* `walk_eq_walk` — so registrations that are stepped by hand stop at the same places;
* `Policy.worded` — a policy with another wording;
* `Ending.worded`, `Ending.unique` — a registration goes in one way only, whatever the wording;
* `SameStanding.move` — a step of the interpreter;
* `Hall.Alike.step`, `Hall.Alike.run` — steps in any order over one store;
* `wording_unobservable` — looking, stepping by hand, whole runs, and runs over one store.
-/

namespace Deferred.Registration

open Typed (Boxed Checked)

/-! ## Stepping by hand -/

/-- A result of another type than the operation has is refused. -/
theorem resume_waiting_of_ne (M : Typed.Meaning signature) (wording : Wording) {r r' v : Kind}
    (label : Label) (k : (e : Kind) → ResumeName r v e)
    (operation : StateM Store (Except StoreError (kinds.El r)))
    (rest : List (Step signature.untyped)) (hne : r' ≠ r) (result : kinds.El r') :
    Typed.Effect.resume (S := signature) (v := Kind.user) (e := Kind.problem) (r := r') M
        ⟨.command (waiting wording label k operation rest)⟩ result =
      pure (.error (.typeMismatch label (kinds.name r) (kinds.name r'))) := by
  have hrefused : (waiting wording label k operation rest).resume M.untyped r' result =
      pure (.error (.typeMismatch label (kinds.name r) (kinds.name r'))) := dif_neg hne
  unfold Typed.Effect.resume Effect.resume
  exact congrArg (· >>= _) hrefused

/-- What comes of a result that is supplied by hand is opened, if it is an outcome. -/
theorem resume_of_pure (M : Typed.Meaning signature) {c : Command signature.untyped} {r : Kind}
    {result : kinds.El r} {next : Effect signature.untyped}
    (hreveal : Typed.Effect.reveal next = (pure ⟨next⟩ : Typed.Act signature Registering))
    (hresume : c.resume M.untyped r result = pure (.ok next)) :
    Typed.Effect.resume (S := signature) (v := Kind.user) (e := Kind.problem) (r := r) M
        ⟨.command c⟩ result =
      pure (.ok ⟨next⟩) := by
  unfold Typed.Effect.resume Effect.resume
  refine (congrArg (· >>= _) hresume).trans ?_
  exact congrArg (Except.ok <$> ·) hreveal

section

variable (policy : Policy) (input : Applicant)

/-- A lookup that is answered by hand. -/
theorem resume_lookingUp (found : Option User) :
    Typed.Effect.resume (S := signature) (v := Kind.user) (e := Kind.problem) (r := Kind.foundUser)
        (meaning policy) ⟨.command (lookingUp policy input)⟩ found =
      pure (.ok ⟨decided policy input found⟩) := by
  refine resume_of_pure (meaning policy) ?_
    (congrArg (Except.ok <$> ·) (pass_decided policy input found))
  cases found with
  | none =>
    rfl
  | some user =>
    exact reveal_turnedDown (.alreadyRegistered user.email)

/-- A save that is answered by hand. -/
theorem resume_saving (user : User) :
    Typed.Effect.resume (S := signature) (v := Kind.user) (e := Kind.problem) (r := Kind.user)
        (meaning policy) ⟨.command (saving policy input)⟩ user =
      pure (.ok ⟨registered user⟩) := by
  have hpass : (registered user).pass (meaning policy).untyped (saving policy input).queue =
      pure (registered user) :=
    (pass_success_waiting ..).trans (Effect.pass_success_nil _ _)
  exact resume_of_pure (meaning policy) (reveal_registered user)
    (congrArg (Except.ok <$> ·) hpass)

end

/-- Registrations that wait for the same operation under two policies, or have ended alike. -/
inductive Counterpart (policy policy' : Policy) (input : Applicant) :
    Registering → Registering → Prop where
  | lookingUp : Counterpart policy policy' input ⟨.command (lookingUp policy input)⟩
      ⟨.command (lookingUp policy' input)⟩
  | saving : Counterpart policy policy' input ⟨.command (saving policy input)⟩
      ⟨.command (saving policy' input)⟩
  | turnedDown (problem : RegistrationError) :
      Counterpart policy policy' input ⟨turnedDown problem⟩ ⟨turnedDown problem⟩
  | registered (user : User) :
      Counterpart policy policy' input ⟨registered user⟩ ⟨registered user⟩

/-- The same refusal, or registrations that are counterparts. -/
inductive SameAnswer (policy policy' : Policy) (input : Applicant) :
    Except ResumeError Registering → Except ResumeError Registering → Prop where
  | refused (reason : ResumeError) :
      SameAnswer policy policy' input (.error reason) (.error reason)
  | next {a b : Registering} (h : Counterpart policy policy' input a b) :
      SameAnswer policy policy' input (.ok a) (.ok b)

namespace Counterpart

variable {policy policy' : Policy} {input : Applicant} {a b : Registering}

theorem begun (policy policy' : Policy) (input : Applicant) :
    Counterpart policy policy' input ⟨begun policy input⟩ ⟨begun policy' input⟩ := by
  unfold Registration.begun
  cases input.validate with
  | ok _ => exact .lookingUp
  | error problem => exact .turnedDown problem

theorem decided (policy policy' : Policy) (input : Applicant) (found : Option User) :
    Counterpart policy policy' input ⟨decided policy input found⟩
      ⟨decided policy' input found⟩ := by
  cases found with
  | none => exact .saving
  | some user => exact .turnedDown (.alreadyRegistered user.email)

theorem label?_eq (h : Counterpart policy policy' input a b) : b.label? = a.label? := by
  cases h <;> rfl

theorem outcome?_eq (h : Counterpart policy policy' input a b) : b.outcome? = a.outcome? := by
  cases h <;> rfl

theorem shown_eq (h : Counterpart policy policy' input a b) (user : User → Shown)
    (problem : RegistrationError → Shown) :
    Typed.Effect.shown (S := signature) (v := Kind.user) (e := Kind.problem) user problem b =
      Typed.Effect.shown (S := signature) (v := Kind.user) (e := Kind.problem) user problem a := by
  cases h <;> rfl

/-- Whatever is fed to two counterparts, they refuse it alike or become counterparts. -/
theorem resume (h : Counterpart policy policy' input a b) {r : Kind} (result : kinds.El r) :
    ∃ x y, Typed.Effect.resume (S := signature) (r := r) (meaning policy) a result = pure x ∧
      Typed.Effect.resume (S := signature) (r := r) (meaning policy') b result = pure y ∧
      SameAnswer policy policy' input x y := by
  cases h with
  | lookingUp =>
    -- The queues differ, and what comes out of them does not.
    by_cases hr : r = Kind.foundUser
    · subst hr
      exact ⟨_, _, resume_lookingUp policy input result, resume_lookingUp policy' input result,
        .next (.decided policy policy' input result)⟩
    · exact ⟨_, _, resume_waiting_of_ne _ _ _ _ _ _ hr result,
        resume_waiting_of_ne _ _ _ _ _ _ hr result, .refused _⟩
  | saving =>
    by_cases hr : r = Kind.user
    · subst hr
      exact ⟨_, _, resume_saving policy input result, resume_saving policy' input result,
        .next (.registered result)⟩
    · exact ⟨_, _, resume_waiting_of_ne _ _ _ _ _ _ hr result,
        resume_waiting_of_ne _ _ _ _ _ _ hr result, .refused _⟩
  | turnedDown problem =>
    exact ⟨_, _, rfl, rfl, .refused .notSuspended⟩
  | registered user =>
    exact ⟨_, _, rfl, rfl, .refused .notSuspended⟩

theorem walkOn_eq (h : Counterpart policy policy' input a b) (replies : List Reply) :
    walkOn policy' b replies = walkOn policy a replies := by
  induction replies generalizing a b with
  | nil =>
    rfl
  | cons reply rest ih =>
    -- A reply is a result of one of two types.
    have hfeed : ∃ x y, reply.feed policy a = pure x ∧ reply.feed policy' b = pure y ∧
        SameAnswer policy policy' input x y := by
      cases reply with
      | found user => exact h.resume (r := .foundUser) user
      | saved user => exact h.resume (r := .user) user
    rcases hfeed with ⟨x, y, hx, hy, hsame⟩
    rw [walkOn, walkOn, hx, hy, pure_bind, pure_bind]
    cases hsame with
    | refused reason =>
      rfl
    | next hnext =>
      simp only [hnext.label?_eq, hnext.outcome?_eq, ih hnext]

end Counterpart

/-- Registrations that are stepped by hand stop at the same places under all policies. -/
theorem walk_eq_walk (policy policy' : Policy) (input : Applicant) (replies : List Reply) :
    walk policy' input replies = walk policy input replies := by
  have h := Counterpart.begun policy policy' input
  simp only [walk, start_eq, pure_bind, h.label?_eq, h.walkOn_eq replies]

/-! ## Running -/

/-- The same policy with another wording. -/
def Policy.worded (policy : Policy) (wording : Wording) : Policy := { policy with wording }

namespace Ending

variable {policy : Policy} {input : Applicant} {s s' : Store}
  {r : Except RegistrationError User} {t : Trace}

theorem worded (h : Ending policy input s r t s') (wording : Wording) :
    Ending (policy.worded wording) input s r t s' := by
  cases h with
  | rejected invalid => exact .rejected invalid
  | known valid found => exact .known valid found
  | lost valid new fails => exact .lost valid new fails
  | saved valid new works => exact .saved valid new works

/-- A registration goes in one way only. -/
theorem unique {s'' : Store} {r' : Except RegistrationError User} {t' : Trace}
    (h : Ending policy input s r t s') (h' : Ending policy input s r' t' s'') :
    r' = r ∧ t' = t ∧ s'' = s' := by
  -- Two different ways disagree on the rules, on what the lookup found, or on whether saves fail.
  cases h <;> cases h' <;> simp_all

end Ending

/-- A run takes the same way in either wording. -/
theorem interpret_worded (policy : Policy) (wording : Wording) (input : Applicant) :
    (start (policy.worded wording) input >>= interpret (policy.worded wording)) =
      (start policy input >>= interpret policy) := by
  funext checked
  rcases interpret_start policy input checked with ⟨r, t, s, hending, hrun⟩
  rcases interpret_start (policy.worded wording) input checked with ⟨r', t', s', hending', hrun'⟩
  rcases (hending.worded wording).unique hending' with ⟨rfl, rfl, rfl⟩
  exact hrun'.trans hrun.symm

/-! ## Steps over one store -/

/-- Two registrations are counterparts, or both were lost when they were saved. -/
inductive SameStanding (policy policy' : Policy) (input : Applicant) :
    Advance signature.untyped → Advance signature.untyped → Prop where
  | next {a b : Effect signature.untyped} (h : Counterpart policy policy' input ⟨a⟩ ⟨b⟩) :
      SameStanding policy policy' input (.next a) (.next b)
  | lost (problem : RegistrationError) : SameStanding policy policy' input
      (.fault .operation (Boxed.mk (U := kinds) Kind.problem problem))
      (.fault .operation (Boxed.mk (U := kinds) Kind.problem problem))

namespace SameStanding

variable {policy policy' : Policy} {input : Applicant} {a b : Advance signature.untyped}

theorem waitsFor_eq (h : SameStanding policy policy' input a b) : waitsFor b = waitsFor a := by
  cases h with
  | next h => exact h.label?_eq
  | lost problem => rfl

theorem resultOf_eq (h : SameStanding policy policy' input a b) : resultOf b = resultOf a := by
  cases h with
  | next h => exact h.outcome?_eq
  | lost problem => rfl

/-- A step leads to the same standing and to the same store. -/
theorem move {wording : Wording} (h : SameStanding policy (policy.worded wording) input a b)
    (checked : Checked signature) :
    SameStanding policy (policy.worded wording) input (move policy a checked).1
        (move (policy.worded wording) b checked).1 ∧
      (move (policy.worded wording) b checked).2 = (move policy a checked).2 := by
  cases h with
  | lost problem =>
    exact ⟨.lost problem, rfl⟩
  | next h =>
    cases h with
    | turnedDown problem =>
      exact ⟨.next (.turnedDown problem), rfl⟩
    | registered user =>
      exact ⟨.next (.registered user), rfl⟩
    | lookingUp =>
      rw [move_command, move_command, advance_lookingUp, advance_lookingUp]
      exact ⟨.next (.decided _ _ _ _), rfl⟩
    | saving =>
      -- The two policies agree on whether saves fail.
      cases hsaves : policy.savesFail with
      | false =>
        rw [move_command, move_command, advance_saving policy input checked hsaves,
          advance_saving (policy.worded wording) input checked hsaves]
        exact ⟨.next (.registered _), rfl⟩
      | true =>
        rw [move_command, move_command, advance_saving_fails policy input checked hsaves,
          advance_saving_fails (policy.worded wording) input checked hsaves]
        exact ⟨.lost _, rfl⟩

end SameStanding

namespace Hall

variable {ι : Type} {policy : Policy} {wording : Wording} {inputs : ι → Applicant} {h h' : Hall ι}

/-- The same store, and the same standing of every registration. -/
structure Alike (policy policy' : Policy) (inputs : ι → Applicant) (h h' : Hall ι) : Prop where
  checked : h'.checked = h.checked
  standing : ∀ i, SameStanding policy policy' (inputs i) (h.standing i) (h'.standing i)

namespace Alike

theorem opened (policy policy' : Policy) (inputs : ι → Applicant) :
    Alike policy policy' inputs (opened policy inputs) (opened policy' inputs) where
  checked := rfl
  standing i := by
    rw [standing_opened, standing_opened]
    exact .next (.begun policy policy' (inputs i))

variable (halike : Alike policy (policy.worded wording) inputs h h')

include halike

/-- A step saves the same, if anything. -/
theorem save?_eq (i : ι) :
    h'.save? (policy.worded wording) inputs i = h.save? policy inputs i := by
  have hstore : h'.store = h.store := congrArg Checked.world halike.checked
  simp only [save?, nextSave, (halike.standing i).waitsFor_eq, hstore]
  rfl

variable [DecidableEq ι]

theorem step (i : ι) :
    Alike policy (policy.worded wording) inputs (h.step policy i)
      (h'.step (policy.worded wording) i) := by
  rcases (halike.standing i).move h.checked with ⟨hstanding, hchecked⟩
  refine ⟨?_, fun j => ?_⟩
  · show (move _ (h'.standing i) h'.checked).2 = (move policy (h.standing i) h.checked).2
    rw [halike.checked]
    exact hchecked
  · by_cases hji : j = i
    · subst hji
      rw [step_standing_self, step_standing_self, halike.checked]
      exact hstanding
    · rw [step_standing_of_ne h hji, step_standing_of_ne h' hji]
      exact halike.standing j

theorem run (schedule : List ι) :
    Alike policy (policy.worded wording) inputs (h.run policy schedule)
      (h'.run (policy.worded wording) schedule) := by
  induction schedule generalizing h h' with
  | nil =>
    exact halike
  | cons i rest ih =>
    exact ih (halike.step i)

theorem saves_eq (schedule : List ι) :
    h'.saves (policy.worded wording) inputs schedule = h.saves policy inputs schedule := by
  induction schedule generalizing h h' with
  | nil =>
    rfl
  | cons i rest ih =>
    rw [saves, saves, halike.save?_eq i, ih (halike.step i)]

end Alike

end Hall

/-- The wording of problems decides which type of errors the store gives, and whether a link makes
problems of them.  It cannot be seen in what a registration looks like when it is started, in where
it stops when it is stepped by hand, in the result, the record and the store of a whole run, nor in
what any number of registrations save, wait for and return while they take their steps over one
store. -/
theorem wording_unobservable (policy : Policy) (wording : Wording) :
    let policy' := policy.worded wording
    (∀ input user problem,
      (Typed.Effect.shown user problem <$> start policy' input) =
        (Typed.Effect.shown user problem <$> start policy input)) ∧
    (∀ input replies, walk policy' input replies = walk policy input replies) ∧
    (∀ input, (start policy' input >>= interpret policy') =
      (start policy input >>= interpret policy)) ∧
    ∀ {ι : Type} [DecidableEq ι] (inputs : ι → Applicant) (schedule : List ι),
      let first := Hall.opened policy inputs
      let first' := Hall.opened policy' inputs
      let h := first.run policy schedule
      let h' := first'.run policy' schedule
      h'.checked = h.checked ∧
      first'.saves policy' inputs schedule = first.saves policy inputs schedule ∧
      ∀ i, waitsFor (h'.standing i) = waitsFor (h.standing i) ∧
        resultOf (h'.standing i) = resultOf (h.standing i) := by
  intro policy'
  refine ⟨fun input user problem => ?_, walk_eq_walk policy policy',
    interpret_worded policy wording, fun inputs schedule => ?_⟩
  · rw [start_eq, start_eq, map_pure, map_pure]
    exact congrArg pure ((Counterpart.begun policy policy' input).shown_eq user problem)
  · have hopened := Hall.Alike.opened policy policy' inputs
    have halike := hopened.run schedule
    exact ⟨halike.checked, hopened.saves_eq schedule,
      fun i => ⟨(halike.standing i).waitsFor_eq, (halike.standing i).resultOf_eq⟩⟩

end Deferred.Registration
