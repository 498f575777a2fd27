import Deferred.Proofs.Accounts
import Deferred.Proofs.Rehearsal
import Deferred.Proofs.Typing
import Deferred.Registration.Desk

/-!
# Stages — the two commands of a registration, and where they lead

The flow is a pipeline of four steps, and the steps that are left move from queue to queue.  What
there is of it while it runs is little: a registration waits for its lookup, or for its save, or it
has ended.

* `waiting` — a command of the store, in either wording;
* `lookingUp`, `saving` — the two commands, with all that is queued behind them;
* `start_eq` — the effect that is started with, without a look at the store;
* `advance_lookingUp`, `advance_saving` — one step of the interpreter from each command;
* `Ending` — all ways in which a registration may go, each with its record and what it leaves;
* `interpret_start` — a registration goes in one of these ways.
-/

namespace Deferred

namespace Typed

variable {S : Signature}

/-- A value that comes to a step of a queue. -/
theorem pass_success_call (M : Meaning S) {a v e : S.types.Ty} (f : S.Fn a v e)
    (x : S.types.El a) (rest : List (Deferred.Link S.untyped)) :
    (Deferred.Effect.success (S := S.untyped) (Boxed.mk a x)).pass M.untyped
        (.ofList (.onSuccess (Step.call f).untyped :: rest)) =
      M.call f x >>= fun y => y.untyped.pass M.untyped (.ofList rest) := by
  refine (Deferred.Effect.pass_success_onSuccess _ _ _ _).trans ?_
  rw [Step.run_call, bind_map_left]

end Typed

namespace Registration

open Typed (Boxed Checked)

/-! ## Commands -/

def findLabel : Label := ⟨"find_user_by_email"⟩

def saveLabel : Label := ⟨"save_user"⟩

theorem findLabel_ne_saveLabel : findLabel ≠ saveLabel := by decide

/-- The steps of the flow by their names. -/
def step {a v e : Kind} (f : StepName a v e) : Step signature.untyped :=
  (Typed.Step.call (S := signature) f).untyped

/-- The type of the errors that the store gives. -/
def errorKind : Wording → Kind
  | .detailed => .storeError
  | .plain => .problem

/-- An error of the store in its box. -/
def boxedError (error : StoreError) : Wording → Boxed kinds
  | .detailed => Boxed.mk (U := kinds) Kind.storeError error
  | .plain => Boxed.mk (U := kinds) Kind.problem (RegistrationError.store error)

/-- What makes problems of the errors of the store. -/
def problemLinks : Wording → List (Link signature.untyped)
  | .detailed => [.onError (@Typed.transform signature Kind.storeError Kind.problem ofStoreError)]
  | .plain => []

/-- A registration that waits for an operation of the store, with the steps that are left. -/
def waiting (wording : Wording) {r v : Kind} (label : Label) (k : (e : Kind) → ResumeName r v e)
    (operation : StateM Store (Except StoreError (kinds.El r)))
    (rest : List (Step signature.untyped)) : Command signature.untyped where
  label := label
  request :=
    { result := r
      operation := do
        return (← Typed.lift (S := signature) operation).mapError (boxedError · wording)
      continuation := .total (S := signature.untyped)
        (Typed.ContName.mk (S := signature) v (errorKind wording) (k (errorKind wording))) }
  queue := .ofList (problemLinks wording ++ rest.map .onSuccess)

/-- A registration that waits for its lookup. -/
def lookingUp (policy : Policy) (input : Applicant) : Command signature.untyped :=
  waiting policy.wording findLabel (.beside input) (Store.find input.email)
    [step .requireNew, step .save]

/-- A registration that waits for its save. -/
def saving (policy : Policy) (input : Applicant) : Command signature.untyped :=
  waiting policy.wording saveLabel .done (Store.save policy input) []

/-- A registration that has been turned down. -/
def turnedDown (problem : RegistrationError) : Effect signature.untyped :=
  .failure (Boxed.mk (U := kinds) Kind.problem problem)

/-- A registration that has come to its account. -/
def registered (user : User) : Effect signature.untyped :=
  .success (Boxed.mk (U := kinds) Kind.user user)

/-- A registration as it is started. -/
def begun (policy : Policy) (input : Applicant) : Effect signature.untyped :=
  match input.validate with
  | .ok _ => .command (lookingUp policy input)
  | .error problem => turnedDown problem

/-- A registration after its lookup. -/
def decided (policy : Policy) (input : Applicant) : Option User → Effect signature.untyped
  | some user => turnedDown (.alreadyRegistered user.email)
  | none => .command (saving policy input)

/-! Registrations that have ended are opened as what they are. -/

theorem reveal_turnedDown (problem : RegistrationError) :
    (Typed.Effect.reveal (turnedDown problem) : Typed.Act signature Registering) =
      pure ⟨turnedDown problem⟩ :=
  Typed.Effect.HasType.reveal
    (Typed.Effect.HasType.failure (S := signature) (v := Kind.user) (e := Kind.problem) problem)

theorem reveal_registered (user : User) :
    (Typed.Effect.reveal (registered user) : Typed.Act signature Registering) =
      pure ⟨registered user⟩ :=
  Typed.Effect.HasType.reveal
    (Typed.Effect.HasType.success (S := signature) (v := Kind.user) (e := Kind.problem) user)

/-! ## Commands of the store -/

section

variable (wording : Wording) {r v : Kind} (label : Label) (k : (e : Kind) → ResumeName r v e)
  (operation : StateM Store (Except StoreError (kinds.El r)))

theorem askStore_eq :
    askStore wording label operation k =
      pure ⟨.command (waiting wording label k operation [])⟩ := by
  cases wording with
  | detailed =>
    -- The link was put behind an empty queue.
    have hqueue : Deque.empty.pushBack
        (.onError (@Typed.transform signature Kind.storeError Kind.problem ofStoreError)) =
        (waiting .detailed label k operation []).queue :=
      Deque.ext (by simp [waiting, problemLinks])
    exact congrArg (fun queue =>
      (pure ⟨.command { waiting .detailed label k operation [] with queue }⟩ :
        Typed.Act signature (Typed.Effect signature v Kind.problem))) hqueue
  | plain =>
    -- The error was put into its box after it had become a problem.
    have hoperation : (Typed.Effect.deferred (S := signature) (e := Kind.problem) label
        (givingProblems operation) (k .problem)).untyped =
        .command (waiting .plain label k operation []) := by
      refine congrArg
        (fun act : Action signature.untyped (Except (Boxed kinds) (kinds.El r)) =>
          Effect.command { waiting .plain label k operation [] with
            request := { (waiting .plain label k operation []).request with operation := act } }) ?_
      funext checked
      show (((operation checked.world).1.mapError RegistrationError.store).mapError _, _) =
        ((operation checked.world).1.mapError _, _)
      cases (operation checked.world).1 <;> rfl
    exact congrArg (fun e =>
      (pure ⟨e⟩ : Typed.Act signature (Typed.Effect signature v Kind.problem))) hoperation

variable (M : Meaning signature.untyped) (rest : List (Step signature.untyped))

/-- The steps behind a command are those that have been queued. -/
theorem pass_waiting :
    (Effect.command (waiting wording label k operation [])).pass M (.ofList (rest.map .onSuccess)) =
      pure (.command (waiting wording label k operation rest)) := by
  have hqueue : (waiting wording label k operation []).queue.join (.ofList (rest.map .onSuccess)) =
      (waiting wording label k operation rest).queue := Deque.ext (by simp [waiting])
  refine (Effect.pass_command _ _ _).trans ?_
  exact congrArg (fun queue => pure
    (Effect.command { waiting wording label k operation [] with queue })) hqueue

/-- Nothing becomes of a value on its way to the steps. -/
theorem pass_success_waiting (value : Boxed kinds) :
    (Effect.success (S := signature.untyped) value).pass M
        (waiting wording label k operation rest).queue =
      (Effect.success (S := signature.untyped) value).pass M (.ofList (rest.map .onSuccess)) := by
  cases wording with
  | detailed =>
    exact Effect.pass_success_onError _ _ _ _
  | plain =>
    rfl

/-- An error of the store comes to be a problem in either wording. -/
theorem passError_waiting (error : StoreError) :
    passError (S := signature.untyped) (boxedError error wording)
        (waiting wording label k operation rest).queue =
      pure (Boxed.mk (U := kinds) Kind.problem (RegistrationError.store error)) := by
  have hsteps := passErrorAlong_map_onSuccess (S := signature.untyped) rest
    (Boxed.mk (U := kinds) Kind.problem (RegistrationError.store error))
  have hqueue : (waiting wording label k operation rest).queue.toList =
      problemLinks wording ++ rest.map .onSuccess := Deque.toList_ofList _
  refine (congrArg (passErrorAlong _) hqueue).trans ?_
  cases wording with
  | detailed =>
    exact hsteps
  | plain =>
    exact hsteps

/-- The answer of the store, with its error in a box. -/
theorem operation_waiting {answer : Except StoreError (kinds.El r)} {s : Store}
    {checked : Checked signature} (hoperation : operation checked.world = (answer, s)) :
    (waiting wording label k operation rest).request.operation checked =
      (answer.mapError (boxedError · wording), { checked with world := s }) :=
  congrArg (fun x : Except StoreError (kinds.El r) × Store =>
    (x.1.mapError (boxedError · wording),
      ({ checked with world := x.2 } : Checked signature))) hoperation

end

/-! ## Starting -/

/-- No accounts, and no operation invoked. -/
def opened : Checked signature := { world := ({} : Store) }

theorem Applicant.validate_eq_ok {input input' : Applicant} (h : input.validate = .ok input') :
    input' = input := by
  unfold Applicant.validate at h
  split at h
  · cases h
  · split at h
    · cases h
    · exact (Except.ok.inj h).symm

theorem Applicant.validate_cases (input : Applicant) :
    input.validate = .ok input ∨ ∃ problem, input.validate = .error problem := by
  cases h : input.validate with
  | ok input' =>
    rw [Applicant.validate_eq_ok h]
    exact .inl rfl
  | error problem =>
    exact .inr ⟨problem, rfl⟩

section

variable (policy : Policy) (input : Applicant)

/-- The steps up to the lookup are run, and the others are queued behind it. -/
theorem pass_begun :
    (Effect.success (S := signature.untyped) (Boxed.mk (U := kinds) Kind.applicant input)).pass
        (meaning policy).untyped
        (.ofList ([step .validate, step .find, step .requireNew, step .save].map .onSuccess)) =
      pure (begun policy input) := by
  -- Each step is taken by `trans`: its types hide behind those of the signature.
  refine (Typed.pass_success_call (meaning policy) StepName.validate input _).trans ?_
  show (Typed.Effect.ofExcept (S := signature) (v := Kind.applicant) (e := Kind.problem)
    input.validate).untyped.pass (meaning policy).untyped
      (.ofList ([step .find, step .requireNew, step .save].map .onSuccess)) = _
  unfold begun
  rcases h : input.validate with problem | input'
  · exact Effect.pass_failure _ _ _
  · cases Applicant.validate_eq_ok h
    refine (Typed.pass_success_call (meaning policy) StepName.find input _).trans ?_
    have hask := askStore_eq policy.wording findLabel (ResumeName.beside input)
      (Store.find input.email)
    refine (congrArg (· >>= fun y : Typed.Effect signature Kind.checked Kind.problem =>
      y.untyped.pass (meaning policy).untyped _) hask).trans ?_
    exact pass_waiting policy.wording findLabel (ResumeName.beside input) (Store.find input.email)
      (meaning policy).untyped [step .requireNew, step .save]

theorem start_eq : start policy input = pure ⟨begun policy input⟩ := by
  have hrun : registration.untyped.run (meaning policy).untyped
      (Boxed.mk (U := kinds) Kind.applicant input) = pure (begun policy input) :=
    (Step.runAll_eq_pass _ _ _).trans (pass_begun policy input)
  refine (congrArg (· >>= Typed.Effect.reveal) hrun).trans ?_
  unfold begun
  rcases input.validate with problem | input'
  · exact reveal_turnedDown problem
  · rfl

/-! ## Going on -/

/-- The steps behind the lookup. -/
theorem pass_decided (found : Option User) :
    (Effect.success (S := signature.untyped)
        (Boxed.mk (U := kinds) Kind.checked (input, found))).pass (meaning policy).untyped
        (lookingUp policy input).queue =
      pure (decided policy input found) := by
  refine (pass_success_waiting ..).trans ?_
  refine (Typed.pass_success_call (meaning policy) StepName.requireNew (input, found) _).trans ?_
  cases found with
  | none =>
    refine (Typed.pass_success_call (meaning policy) StepName.save input _).trans ?_
    have hask := askStore_eq policy.wording saveLabel ResumeName.done (Store.save policy input)
    refine (congrArg (· >>= fun y : Typed.Effect signature Kind.user Kind.problem =>
      y.untyped.pass (meaning policy).untyped _) hask).trans ?_
    exact pass_waiting policy.wording saveLabel ResumeName.done (Store.save policy input)
      (meaning policy).untyped []
  | some user =>
    exact Effect.pass_failure _ _ _

end

section

variable (policy : Policy) (input : Applicant) (checked : Checked signature)

/-- A lookup finds the account that is there at this moment. -/
theorem advance_lookingUp :
    (lookingUp policy input).advance (meaning policy).untyped checked =
      (.next (decided policy input (checked.world.find? input.email)),
        { checked with world := checked.world.looked }) := by
  have hpass := pass_decided policy input (checked.world.find? input.email)
  have hfind : Store.find input.email checked.world =
      (.ok (checked.world.find? input.email), checked.world.looked) := rfl
  have hanswer := operation_waiting policy.wording findLabel (ResumeName.beside input) _
    [step .requireNew, step .save] hfind
  have hadvance := Command.advance_of_ok (M := (meaning policy).untyped) hanswer rfl
  refine hadvance.trans ?_
  exact congrArg (fun x : Action signature.untyped (Effect signature.untyped) =>
    (Advance.next <$> x) { checked with world := checked.world.looked }) hpass

/-- A save that works stores an account, whether its email has one or not. -/
theorem advance_saving (works : policy.savesFail = false) :
    (saving policy input).advance (meaning policy).untyped checked =
      (.next (registered (checked.world.nextUser policy input)),
        { checked with world := checked.world.saved policy input }) := by
  have hsave : Store.save policy input checked.world =
      (.ok (checked.world.nextUser policy input), checked.world.saved policy input) := by
    show (if policy.savesFail then _ else _) = _
    rw [works]
    rfl
  have hanswer := operation_waiting policy.wording saveLabel ResumeName.done _ [] hsave
  have hadvance := Command.advance_of_ok (M := (meaning policy).untyped) hanswer rfl
  have hpass : (registered (checked.world.nextUser policy input)).pass (meaning policy).untyped
      (saving policy input).queue = pure (registered (checked.world.nextUser policy input)) :=
    (pass_success_waiting ..).trans (Effect.pass_success_nil _ _)
  refine hadvance.trans ?_
  exact congrArg (fun x : Action signature.untyped (Effect signature.untyped) =>
    (Advance.next <$> x) { checked with world := checked.world.saved policy input }) hpass

/-- A save that fails stores nothing. -/
theorem advance_saving_fails (fails : policy.savesFail = true) :
    (saving policy input).advance (meaning policy).untyped checked =
      (.fault .operation (Boxed.mk (U := kinds) Kind.problem
        (RegistrationError.store ⟨"connection reset"⟩)),
        { checked with world := checked.world.tried }) := by
  have hsave : Store.save policy input checked.world =
      (.error ⟨"connection reset"⟩, checked.world.tried) := by
    show (if policy.savesFail then _ else _) = _
    rw [fails]
    rfl
  have hanswer := operation_waiting policy.wording saveLabel ResumeName.done _ [] hsave
  have hadvance := Command.advance_of_refusal (M := (meaning policy).untyped) hanswer
  have herror := passError_waiting policy.wording saveLabel ResumeName.done
    (Store.save policy input) [] ⟨"connection reset"⟩
  refine hadvance.trans ?_
  exact congrArg (fun x : Action signature.untyped (Boxed kinds) =>
    (Advance.fault (S := signature.untyped) .operation <$> x)
      { checked with world := checked.world.tried }) herror

end

/-! ## Whole runs -/

/-- The ways in which a registration goes, from the store it finds to the store it leaves. -/
inductive Ending (policy : Policy) (input : Applicant) (s : Store) :
    Except RegistrationError User → Trace → Store → Prop where
  /-- The rules turn it down, and the store is not looked at. -/
  | rejected {problem : RegistrationError} (invalid : input.validate = .error problem) :
      Ending policy input s (.error problem) ⟨#[], none⟩ s
  /-- The email has an account. -/
  | known {user : User} (valid : input.validate = .ok input)
      (found : s.find? input.email = some user) :
      Ending policy input s (.error (.alreadyRegistered user.email)) ⟨#[findLabel], none⟩ s.looked
  /-- The account could not be saved. -/
  | lost (valid : input.validate = .ok input) (new : s.find? input.email = none)
      (fails : policy.savesFail = true) :
      Ending policy input s (.error (.store ⟨"connection reset"⟩))
        ⟨#[findLabel, saveLabel], some ⟨saveLabel, .operation⟩⟩ s.looked.tried
  /-- The account was saved. -/
  | saved (valid : input.validate = .ok input) (new : s.find? input.email = none)
      (works : policy.savesFail = false) :
      Ending policy input s (.ok (s.nextUser policy input)) ⟨#[findLabel, saveLabel], none⟩
        (s.looked.saved policy input)

section

variable (policy : Policy) (input : Applicant) (checked : Checked signature)

/-- The interpreter that registrations are run with. -/
def runner : Interpreter signature.untyped where
  meaning := (meaning policy).untyped
  observe := fun _ => pure ()

/-- A registration has a run, and its record names at most two commands. -/
theorem ending_run :
    ∃ r t s', Ending policy input checked.world r t s' ∧ t.size ≤ commandLimit ∧
      (runner policy).Run none (begun policy input) checked
        (Typed.boxResult (S := signature) Kind.user Kind.problem r) t
        { checked with world := s' } := by
  -- At most two steps are taken, and each case is the derivation with the steps that are.
  rcases Applicant.validate_cases input with valid | ⟨problem, invalid⟩
  · have hbegun : begun policy input = .command (lookingUp policy input) := by
      unfold begun
      rw [valid]
    have hfind := advance_lookingUp policy input checked
    rw [hbegun]
    cases hfound : checked.world.find? input.email with
    | some user =>
      rw [hfound] at hfind
      exact ⟨_, _, _, .known valid hfound, Nat.le_succ 1, .next hfind (.failure _ _)⟩
    | none =>
      rw [hfound] at hfind
      cases hsaves : policy.savesFail with
      | true =>
        have hsave := advance_saving_fails policy input
          { checked with world := checked.world.looked } hsaves
        have hrun : (runner policy).Run none (.command (lookingUp policy input)) checked _
            (.invoked findLabel ++ (Trace.invoked saveLabel).faultedAt ⟨saveLabel, .operation⟩) _ :=
          .next hfind (.fault hsave)
        exact ⟨_, _, _, .lost valid hfound hsaves, Nat.le_refl 2, hrun⟩
      | false =>
        have hsave := advance_saving policy input
          { checked with world := checked.world.looked } hsaves
        have hrun : (runner policy).Run none (.command (lookingUp policy input)) checked _
            (.invoked findLabel ++ (.invoked saveLabel ++ .empty)) _ :=
          .next hfind (.next hsave (.success _ _))
        exact ⟨_, _, _, .saved valid hfound hsaves, Nat.le_refl 2, hrun⟩
  · have hbegun : begun policy input = turnedDown problem := by
      unfold begun
      rw [invalid]
    rw [hbegun]
    exact ⟨_, _, _, .rejected invalid, Nat.zero_le 2, .failure _ _⟩

/-- A registration is run to its end if two commands or more may be invoked. -/
theorem runRecorded_begun {limit : Nat} (hlimit : commandLimit ≤ limit) :
    ∃ r t s', Ending policy input checked.world r t s' ∧
      Typed.Effect.runRecorded (S := signature) (v := Kind.user) (e := Kind.problem)
        (meaning policy) limit ⟨begun policy input⟩ checked =
        (some (r, t), { checked with world := s' }) := by
  rcases ending_run policy input checked with ⟨r, t, s', hending, hsize, hrun⟩
  refine ⟨r, t, s', hending, ?_⟩
  -- Events are passed over, so the report of a fault leaves the store as it is.
  have hreport : ∀ w, ((runner policy).reportFault none t w).2 = w := by
    intro w
    unfold Interpreter.reportFault
    cases t.fault <;> rfl
  have hrecorded := (hrun.runRecorded_of_le (Nat.le_trans hsize hlimit)).trans
    (congrArg (Prod.mk _) (hreport _))
  have hopen := Typed.openFinished_boxFinished (S := signature) (v := Kind.user)
    (e := Kind.problem) (some (r, t))
  -- Opening the result is all that a typed run does behind the run underneath.
  exact (congrArg (fun x => Typed.openFinished (S := signature) Kind.user Kind.problem x.1 x.2)
    hrecorded).trans (congrFun hopen _)

theorem interpret_start :
    ∃ r t s', Ending policy input checked.world r t s' ∧
      (start policy input >>= interpret policy) checked =
        (some (r, t), { checked with world := s' }) := by
  rw [start_eq, pure_bind]
  exact runRecorded_begun policy input checked (Nat.le_refl _)

end

end Registration

end Deferred
