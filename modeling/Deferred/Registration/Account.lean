import Deferred.Text.Quoted
import Deferred.Text.Shown

/-!
# Account — who registers, what is stored, and what can go wrong

* `Applicant` — what somebody who registers hands in;
* `User` — what is stored for an account;
* `RegistrationError` — why a registration is turned down, with two wordings;
* `Applicant.validate` — the rules that need no look at the store.
-/

namespace Deferred.Registration

/-- What somebody who registers hands in. -/
structure Applicant where
  email : String
  password : String
  deriving DecidableEq

/-- An account. -/
structure User where
  id : Nat
  email : String
  passwordHash : String
  deriving DecidableEq

/-- A problem of the store itself. -/
structure StoreError where
  message : String
  deriving DecidableEq

/-- Why a registration is turned down.  An existing account is named by its own email. -/
inductive RegistrationError where
  | invalidEmail
  | passwordTooShort
  | alreadyRegistered (email : String)
  | store (error : StoreError)
  deriving DecidableEq

/-- How problems are worded: `detailed` names the email and the store, `plain` does not. -/
inductive Wording where
  | detailed
  | plain
  deriving DecidableEq

namespace RegistrationError

/-- The sentence that reports a problem. -/
def message : Wording → RegistrationError → String
  | _, .invalidEmail => "Invalid email format."
  | _, .passwordTooShort => "Password must be at least 8 characters."
  | .detailed, .alreadyRegistered email => email ++ " is already registered"
  | .plain, .alreadyRegistered _ => "User already exists."
  | .detailed, .store error => "database error: " ++ error.message
  | .plain, .store error => error.message

/-- The rendered form of a problem: in plain wording it is only its sentence. -/
def shown : Wording → RegistrationError → Shown
  | .plain, error => .atom (Text.quoted (error.message .plain))
  | .detailed, .invalidEmail => .atom "InvalidEmail"
  | .detailed, .passwordTooShort => .atom "PasswordTooShort"
  | .detailed, .alreadyRegistered email =>
      .tuple "AlreadyRegistered" [.atom (Text.quoted email)]
  | .detailed, .store error =>
      .tuple "Database" [.tuple "DbError" [.atom (Text.quoted error.message)]]

end RegistrationError

/-- An email has an at sign, and a password has at least eight bytes of UTF-8.  The email is
looked at first. -/
def Applicant.validate (input : Applicant) : Except RegistrationError Applicant :=
  if '@' ∉ input.email.toList then .error .invalidEmail
  else if input.password.utf8ByteSize < 8 then .error .passwordTooShort
  else .ok input

end Deferred.Registration
