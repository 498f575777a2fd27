import Deferred.Registration.Store
import Mathlib.Data.List.Nodup

/-!
# Accounts — what saving does to the accounts that are there

Accounts stand in a list under their emails, and an account that is saved under an email which has
one takes its place without a word.

* `Store.find?_insert_self`, `Store.find?_insert_of_ne` — the account of an email after saving;
* `Store.accounts_insert`, `Store.keys_insert` — under a new email the account is the last one,
  under an old one no email is added;
* `Store.looked`, `Store.tried`, `Store.saved` — the store after each operation;
* `Store.WellKeyed`, `Store.Consistent` — accounts under their own emails, and accounts that were
  given the numbers from one on as ids.
-/

namespace Deferred.Registration.Store

variable {s : Store} {email key : String} {user : User}

/-! ## Looking up -/

theorem lookup_put_self (email : String) (user : User) (accounts : List (String × User)) :
    (put email user accounts).lookup email = some user := by
  induction accounts with
  | nil =>
    simp [put]
  | cons entry rest ih =>
    rcases entry with ⟨key, old⟩
    by_cases h : key = email
    · simp [put, h]
    · have hne : (email == key) = false := by simpa using Ne.symm h
      simp [put, h, List.lookup_cons, hne, ih]

theorem lookup_put_of_ne (h : key ≠ email) (user : User) (accounts : List (String × User)) :
    (put email user accounts).lookup key = accounts.lookup key := by
  induction accounts with
  | nil =>
    simp [put, h]
  | cons entry rest ih =>
    rcases entry with ⟨other, old⟩
    by_cases hother : other = email
    · have hne : (key == email) = false := by simpa using h
      simp [put, hother, List.lookup_cons, hne]
    · simp [put, hother, List.lookup_cons, ih]

@[simp] theorem find?_insert_self (s : Store) (email : String) (user : User) :
    (s.insert email user).find? email = some user :=
  lookup_put_self email user s.accounts

theorem find?_insert_of_ne (s : Store) (h : key ≠ email) (user : User) :
    (s.insert email user).find? key = s.find? key :=
  lookup_put_of_ne h user s.accounts

theorem find?_eq_none_iff : s.find? email = none ↔ email ∉ s.accounts.map Prod.fst := by
  constructor
  · intro h hmem
    rcases List.mem_map.1 hmem with ⟨entry, hentry, rfl⟩
    have hne := List.lookup_eq_none_iff.1 h entry hentry
    simp at hne
  · intro h
    refine List.lookup_eq_none_iff.2 fun entry hentry => ?_
    have hne : email ≠ entry.1 := fun heq => h (heq ▸ List.mem_map_of_mem hentry)
    simpa using hne

/-! ## Saving -/

/-- Under a new email the account is put behind all others. -/
theorem put_of_lookup_eq_none {accounts : List (String × User)}
    (h : accounts.lookup email = none) (user : User) :
    put email user accounts = accounts ++ [(email, user)] := by
  induction accounts with
  | nil =>
    rfl
  | cons entry rest ih =>
    rcases entry with ⟨key, old⟩
    have hne : ¬ key = email := by
      rintro rfl
      simp at h
    have hrest : rest.lookup email = none := by
      have hbeq : (email == key) = false := by simpa using Ne.symm hne
      simpa [List.lookup_cons, hbeq] using h
    simp [put, hne, ih hrest]

theorem accounts_insert (h : s.find? email = none) (user : User) :
    (s.insert email user).accounts = s.accounts ++ [(email, user)] :=
  put_of_lookup_eq_none h user

theorem keys_put {old : User} {accounts : List (String × User)}
    (h : accounts.lookup email = some old) (user : User) :
    (put email user accounts).map Prod.fst = accounts.map Prod.fst := by
  induction accounts with
  | nil =>
    cases h
  | cons entry rest ih =>
    rcases entry with ⟨key, first⟩
    by_cases hkey : key = email
    · simp [put, hkey]
    · have hbeq : (email == key) = false := by simpa using Ne.symm hkey
      have hrest : rest.lookup email = some old := by simpa [List.lookup_cons, hbeq] using h
      simp [put, hkey, ih hrest]

/-- Under an email that has an account, saving adds no email. -/
theorem keys_insert {old : User} (h : s.find? email = some old) (user : User) :
    (s.insert email user).accounts.map Prod.fst = s.accounts.map Prod.fst :=
  keys_put h user

theorem mem_put {entry : String × User} {accounts : List (String × User)}
    (h : entry ∈ put email user accounts) : entry ∈ accounts ∨ entry = (email, user) := by
  induction accounts with
  | nil =>
    exact .inr (List.mem_singleton.1 h)
  | cons first rest ih =>
    rcases first with ⟨key, old⟩
    by_cases hkey : key = email
    · simp only [put, hkey, if_true, List.mem_cons] at h
      rcases h with hnew | hrest
      · exact .inr hnew
      · exact .inl (List.mem_cons_of_mem _ hrest)
    · simp only [put, hkey, if_false, List.mem_cons] at h
      rcases h with hold | hrest
      · exact .inl (hold ▸ List.mem_cons_self)
      · exact (ih hrest).imp (List.mem_cons_of_mem _) id

/-- Every account that is there after saving was there before, or is the one that was saved. -/
theorem mem_insert {entry : String × User} (h : entry ∈ (s.insert email user).accounts) :
    entry ∈ s.accounts ∨ entry = (email, user) :=
  mem_put h

/-! ## Operations -/

/-- A store in which an account has been looked up. -/
def looked (s : Store) : Store := { s with finds := s.finds + 1 }

/-- A store in which it has been tried to save an account. -/
def tried (s : Store) : Store := { s with saves := s.saves + 1 }

/-- A store in which an account has been saved for an applicant. -/
def saved (s : Store) (policy : Policy) (input : Applicant) : Store :=
  s.tried.insert input.email (s.nextUser policy input)

section

variable (s : Store) (policy : Policy) (input : Applicant)

@[simp] theorem accounts_looked : s.looked.accounts = s.accounts := rfl

@[simp] theorem accounts_tried : s.tried.accounts = s.accounts := rfl

theorem find?_saved_self :
    (s.saved policy input).find? input.email = some (s.nextUser policy input) :=
  find?_insert_self ..

theorem find?_saved_of_ne (h : key ≠ input.email) :
    (s.saved policy input).find? key = s.find? key :=
  find?_insert_of_ne s.tried h _

/-- A save adds an account where there was none, and else takes the place of one. -/
theorem size_saved :
    (s.saved policy input).size =
      if (s.find? input.email).isSome then s.size else s.size + 1 := by
  cases hfind : s.find? input.email with
  | none =>
    have hadded : (s.saved policy input).accounts =
        s.accounts ++ [(input.email, s.nextUser policy input)] :=
      accounts_insert (s := s.tried) hfind _
    simp [size, hadded]
  | some old =>
    have hkeys : (s.saved policy input).accounts.map Prod.fst = s.accounts.map Prod.fst :=
      keys_insert (s := s.tried) hfind _
    simpa [size] using congrArg List.length hkeys

end

/-! ## Invariants -/

/-- Every account is under its own email, and no email has two accounts. -/
structure WellKeyed (s : Store) : Prop where
  email : ∀ entry ∈ s.accounts, entry.2.email = entry.1
  nodup : (s.accounts.map Prod.fst).Nodup

/-- The ids are the numbers from one on, each one given once and in order. -/
structure Consistent (s : Store) : Prop extends s.WellKeyed where
  ids : s.accounts.map (fun entry => entry.2.id) = List.range' 1 s.size

theorem WellKeyed.insert (h : s.WellKeyed) (huser : user.email = email) :
    (s.insert email user).WellKeyed := by
  constructor
  · intro entry hentry
    rcases mem_insert hentry with hold | rfl
    · exact h.email entry hold
    · exact huser
  · cases hfind : s.find? email with
    | some old =>
      rw [keys_insert hfind]
      exact h.nodup
    | none =>
      rw [accounts_insert hfind, List.map_append, List.map_singleton, ← List.concat_eq_append]
      exact List.Nodup.concat (find?_eq_none_iff.1 hfind) h.nodup

theorem consistent_empty : ({} : Store).Consistent :=
  ⟨⟨fun _ hentry => absurd hentry List.not_mem_nil, List.nodup_nil⟩, rfl⟩

section

variable {s' : Store} (haccounts : s'.accounts = s.accounts)

include haccounts

/-- Only the accounts matter, not how often the store was asked. -/
theorem find?_congr (email : String) : s'.find? email = s.find? email := by
  unfold find?
  rw [haccounts]

theorem WellKeyed.congr (h : s.WellKeyed) : s'.WellKeyed := by
  constructor
  · rw [haccounts]
    exact h.email
  · rw [haccounts]
    exact h.nodup

theorem Consistent.congr (h : s.Consistent) : s'.Consistent := by
  refine ⟨h.toWellKeyed.congr haccounts, ?_⟩
  unfold size
  rw [haccounts]
  exact h.ids

end

/-- A new account with the next id keeps the store consistent.  Without the first hypothesis an
account would be replaced, and its id be missing. -/
theorem Consistent.insert (h : s.Consistent) (hnew : s.find? email = none)
    (huser : user.email = email) (hid : user.id = s.size + 1) :
    (s.insert email user).Consistent := by
  refine ⟨h.toWellKeyed.insert huser, ?_⟩
  have hsize : (s.insert email user).size = s.size + 1 := by
    unfold size
    rw [accounts_insert hnew, List.length_append]
    rfl
  calc
    (s.insert email user).accounts.map (fun entry => entry.2.id)
        = s.accounts.map (fun entry => entry.2.id) ++ [user.id] := by
          rw [accounts_insert hnew, List.map_append]
          rfl
    _ = List.range' 1 s.size ++ [s.size + 1] := by rw [h.ids, hid]
    _ = List.range' 1 (s.insert email user).size := by
          rw [hsize, List.range'_concat, Nat.mul_comm, Nat.mul_one, Nat.add_comm 1]

theorem Consistent.saved (h : s.Consistent) (policy : Policy) {input : Applicant}
    (hnew : s.find? input.email = none) : (s.saved policy input).Consistent :=
  Consistent.insert (h.congr (accounts_tried s)) hnew rfl rfl

end Deferred.Registration.Store
