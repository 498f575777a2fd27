import Deferred.Registration.Account

/-!
# Store — the accounts, and the operations on them

* `Store` — accounts under their emails, and how often each operation was called;
* `Policy` — how passwords are marked as hashed, whether saving works, and the wording;
* `Store.find`, `Store.save` — the operations.
-/

namespace Deferred.Registration

/-- Accounts under their emails, and the number of calls of each operation. -/
structure Store where
  accounts : List (String × User) := []
  finds : UInt64 := 0
  saves : UInt64 := 0

/-- How accounts are stored, and how problems are worded. -/
structure Policy where
  hashMark : String
  savesFail : Bool := false
  wording : Wording

namespace Policy

/-- Detailed wording, and a store that works. -/
def detailed : Policy where
  hashMark := "hashed_"
  wording := .detailed

/-- Plain wording, and a store whose saving may fail. -/
def plain (savesFail : Bool) : Policy where
  hashMark := "hashed:"
  savesFail
  wording := .plain

end Policy

namespace Store

/-- How many accounts there are. -/
def size (s : Store) : Nat := s.accounts.length

/-- The account of an email. -/
def find? (s : Store) (email : String) : Option User := s.accounts.lookup email

/-- Put an account under an email.  An account that is there already is replaced. -/
def put (email : String) (user : User) : List (String × User) → List (String × User)
  | [] => [(email, user)]
  | (key, old) :: rest =>
      if key = email then (email, user) :: rest else (key, old) :: put email user rest

/-- Put an account under an email. -/
def insert (s : Store) (email : String) (user : User) : Store :=
  { s with accounts := put email user s.accounts }

/-- The account that the next registration would get. -/
def nextUser (s : Store) (policy : Policy) (input : Applicant) : User where
  id := s.size + 1
  email := input.email
  passwordHash := policy.hashMark ++ input.password

/-- Look an account up by its email. -/
def find (email : String) : StateM Store (Except StoreError (Option User)) :=
  modifyGet fun s => (.ok (s.find? email), { s with finds := s.finds + 1 })

/-- Store a new account.  Its id is one more than the number of accounts. -/
def save (policy : Policy) (input : Applicant) : StateM Store (Except StoreError User) :=
  modifyGet fun s =>
    let s := { s with saves := s.saves + 1 }
    if policy.savesFail then (.error ⟨"connection reset"⟩, s)
    else
      let user := s.nextUser policy input
      (.ok user, s.insert input.email user)

end Store

end Deferred.Registration
