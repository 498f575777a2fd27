import Deferred.Registration.Store
import Deferred.Typed.Pipeline

/-!
# Flow — validate, look up, reject an existing account, save

The flow is a typed pipeline.  Its lookup and its save are commands, so everything up to the
next command can be looked at before the store is touched.  In detailed wording the store has errors
of its own, which are made problems by a link behind each command.  In plain wording the store gives
problems, and there is no such link.

* `Kind` — the types that occur in the flow;
* `StepName`, `ResumeName` — its steps and continuations;
* `askStore` — a command of the store, in either wording;
* `meaning` — the effects that steps and continuations stand for;
* `registration` — the pipeline.
-/

namespace Deferred.Registration

/-- The types that occur in the flow: `checked` is an input with the account that was found. -/
inductive Kind where
  | applicant
  | checked
  | user
  | foundUser
  | problem
  | storeError
  deriving DecidableEq

/-- The types of the flow. -/
def kinds : Typed.Universe where
  Ty := Kind
  El
    | .applicant => Applicant
    | .checked => Applicant × Option User
    | .user => User
    | .foundUser => Option User
    | .problem => RegistrationError
    | .storeError => StoreError
  name
    | .applicant => "Applicant"
    | .checked => "(Applicant, Option User)"
    | .user => "User"
    | .foundUser => "Option User"
    | .problem => "RegistrationError"
    | .storeError => "StoreError"

/-- The steps of the flow. -/
inductive StepName : Kind → Kind → Kind → Type where
  | validate : StepName .applicant .applicant .problem
  | find : StepName .applicant .checked .problem
  | requireNew : StepName .checked .applicant .problem
  | save : StepName .applicant .user .problem

/-- The continuations of the flow, with errors of any type: put the input beside what was found, and
be done. -/
inductive ResumeName : Kind → Kind → Kind → Type where
  | beside (input : Applicant) (e : Kind) : ResumeName .foundUser .checked e
  | done (e : Kind) : ResumeName .user .user e

/-- The signature of the flow. -/
def signature : Typed.Signature where
  types := kinds
  World := Store
  Fn := StepName
  Cont := ResumeName
  TryCont := fun _ _ _ => Empty

/-- Turn down a registration whose email has an account. -/
def requireNew : Applicant × Option User → Except RegistrationError Applicant
  | (_, some user) => .error (.alreadyRegistered user.email)
  | (input, none) => .ok input

/-- A problem of the store as a reason to turn a registration down. -/
def ofStoreError (error : StoreError) : StateM Store RegistrationError :=
  return .store error

/-- An operation of the store whose errors are problems as they are. -/
def givingProblems {α : Type} (operation : StateM Store (Except StoreError α)) :
    StateM Store (Except RegistrationError α) :=
  return (← operation).mapError .store

/-- A command of the store.  Its errors become problems by a link behind it, unless the store gives
problems in the first place. -/
def askStore (wording : Wording) {r v : Kind} (label : Label)
    (operation : StateM Store (Except StoreError (kinds.El r)))
    (k : (e : Kind) → ResumeName r v e) :
    Typed.Act signature (Typed.Effect signature v Kind.problem) :=
  match wording with
  | .detailed =>
      let command : Typed.Effect signature v Kind.storeError :=
        .deferred label operation (k .storeError)
      command.mapErr ofStoreError
  | .plain =>
      return Typed.Effect.deferred (S := signature) (e := Kind.problem) label
        (givingProblems operation) (k .problem)

/-- The effect of a step. -/
def runStep (policy : Policy) : {a v e : Kind} → StepName a v e → kinds.El a →
    Typed.Act signature (Typed.Effect signature v e)
  | _, _, _, .validate, (input : Applicant) =>
      return Typed.Effect.ofExcept (S := signature) (v := Kind.applicant) (e := Kind.problem)
        input.validate
  | _, _, _, .find, (input : Applicant) =>
      askStore policy.wording (r := .foundUser) ⟨"find_user_by_email"⟩ (Store.find input.email)
        (.beside input)
  | _, _, _, .requireNew, (checked : Applicant × Option User) =>
      return Typed.Effect.ofExcept (S := signature) (v := Kind.applicant) (e := Kind.problem)
        (requireNew checked)
  | _, _, _, .save, (input : Applicant) =>
      askStore policy.wording (r := .user) ⟨"save_user"⟩ (Store.save policy input) .done

/-- The effect of a continuation. -/
def runResume : {r v e : Kind} → ResumeName r v e → kinds.El r →
    Typed.Act signature (Typed.Effect signature v e)
  | _, _, _, .beside input _, (found : Option User) =>
      return Typed.Effect.success (S := signature) (v := Kind.checked) (input, found)
  | _, _, _, .done _, (user : User) =>
      return Typed.Effect.success (S := signature) (v := Kind.user) user

/-- The effects that the names of the flow stand for. -/
def meaning (policy : Policy) : Typed.Meaning signature where
  call := runStep policy
  resume := runResume
  tryResume := fun k _ => nomatch k

/-- The flow. -/
def registration : Typed.Pipeline signature Kind.applicant Kind.user Kind.problem :=
  Typed.Pipeline.empty
    |>.push (.call StepName.validate)
    |>.push (.call StepName.find)
    |>.push (.call StepName.requireNew)
    |>.push (.call StepName.save)

/-- A registration under way. -/
abbrev Registering := Typed.Effect signature Kind.user Kind.problem

/-- Start a registration.  The store is not touched. -/
def start (policy : Policy) (input : Applicant) : Typed.Act signature Registering :=
  registration.run (meaning policy) input

/-- The rendered form of an account. -/
def User.shown (u : User) : Shown :=
  .record "UserRecord"
    [("id", .atom (toString u.id)), ("email", .atom (Text.quoted u.email)),
      ("password_hash", .atom (Text.quoted u.passwordHash))]

/-- The rendered form of a registration under way. -/
def shownRegistering (policy : Policy) (r : Registering) : Shown :=
  Typed.Effect.shown (S := signature) (v := Kind.user) (e := Kind.problem)
    User.shown (RegistrationError.shown policy.wording) r

end Deferred.Registration
