import Deferred.Registration.Flow

/-!
# Desk — registrations, one after the other

* `Reply`, `Stop`, `walk` — a registration that is stepped through by hand with made-up replies;
* `Attempt`, `Verdict` — what is tried at the desk, and what came of it;
* `attend` — all attempts in order over one store.
-/

namespace Deferred.Registration

/-! ## Interpreting -/

/-- The flow has two commands. -/
def commandLimit : Nat := 2

/-- Run a registration to its end. -/
def interpret (policy : Policy) (r : Registering) :
    Typed.Act signature (Option (Except RegistrationError User × Trace)) :=
  r.runRecorded (meaning policy) commandLimit

/-- The store as it stands. -/
def currentStore : Typed.Act signature Store :=
  Typed.lift (S := signature) (get : StateM Store Store)

/-! ## Stepping by hand -/

/-- A made-up reply of the store. -/
inductive Reply where
  | found (user : Option User)
  | saved (user : User)

/-- Where a registration that is stepped by hand stands. -/
inductive Stop where
  | waiting (label : Label)
  | decided
  | finished (result : Except RegistrationError User)
  | refused (error : ResumeError)

/-- Feed a reply to a registration. -/
def Reply.feed (policy : Policy) (r : Registering) :
    Reply → Typed.Act signature (Except ResumeError Registering)
  | .found user => r.resume (r := Kind.foundUser) (meaning policy) user
  | .saved user => r.resume (r := Kind.user) (meaning policy) user

/-- Feed replies to a registration until it ends or refuses one. -/
def walkOn (policy : Policy) (r : Registering) :
    List Reply → Typed.Act signature (List Stop)
  | [] => return []
  | reply :: rest => do
      match ← reply.feed policy r with
      | .error error => return [.refused error]
      | .ok next =>
          match next.label?, next.outcome? with
          | some label, _ => return .waiting label :: (← walkOn policy next rest)
          | none, some result => return [.finished result]
          | none, none => return []

/-- All stops of a registration, the first one before any reply. -/
def walk (policy : Policy) (input : Applicant) (replies : List Reply) :
    Typed.Act signature (List Stop) := do
  let r ← start policy input
  let first : Stop := match r.label? with
    | some label => .waiting label
    | none => .decided
  return first :: (← walkOn policy r replies)

/-! ## Attempts -/

/-- What is tried: run a registration to its end, or step through it with replies. -/
inductive Attempt where
  | interpreted (input : Applicant)
  | walked (input : Applicant) (replies : List Reply)

/-- What came of an attempt.  A run is reported with the registration as it was before, and with
the store as it was after. -/
inductive Verdict where
  | interpreted (before : Registering) (result : Except RegistrationError User) (trace : Trace)
      (after : Store)
  | walked (stops : List Stop)
  | unfinished

/-- Make one attempt. -/
def Attempt.make (policy : Policy) : Attempt → Typed.Act signature Verdict
  | .interpreted input => do
      let before ← start policy input
      match ← interpret policy before with
      | none => return .unfinished
      | some (result, trace) => return .interpreted before result trace (← currentStore)
  | .walked input replies => return .walked (← walk policy input replies)

/-- Make attempts in order. -/
def makeAll (policy : Policy) : List Attempt → Typed.Act signature (List Verdict)
  | [] => return []
  | attempt :: rest => do
      let verdict ← attempt.make policy
      return verdict :: (← makeAll policy rest)

/-- Make attempts in order on an empty store; also the store at the end. -/
def attend (policy : Policy) (attempts : List Attempt) : List Verdict × Store :=
  let start : Typed.Checked signature := { world := ({} : Store) }
  let (verdicts, checked) := (makeAll policy attempts).run start
  (verdicts, checked.world)

end Deferred.Registration
