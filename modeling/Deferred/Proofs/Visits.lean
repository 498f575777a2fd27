import Deferred.Proofs.Stages

/-!
# Visits — registrations over one store, one after the other

Every registration looks its email up before it saves, and while no other one is under way nothing
comes between the two.  So an account that is saved is always a new one, and its id, which is taken
from the number of accounts, is one that nobody has.

* `Visit.run` — one registration, started and run to its end;
* `reached` — how many of a list of runs have invoked an operation;
* `Ending.consistent`, `Ending.isPrefix`, `Ending.ok_iff` — what one registration does to the
  accounts;
* `Visited` — registrations in order, each from the store that the one before has left;
* `visits_keep_accounts` — all of this for every list of registrations and the next one after it.
-/

namespace Deferred.Registration

open Typed (Checked)

/-! ## One registration -/

/-- How accounts are stored, and who registers. -/
structure Visit where
  policy : Policy
  input : Applicant

/-- The result of a run, and its record. -/
abbrev Recorded := Except RegistrationError User × Trace

/-- Start a registration and run it to its end. -/
def Visit.run (v : Visit) : Typed.Act signature (Option Recorded) :=
  start v.policy v.input >>= interpret v.policy

/-- How many runs have invoked an operation. -/
def reached (label : Label) (answers : List Recorded) : Nat :=
  answers.countP fun answer => label ∈ answer.2.executed

theorem reached_cons (label : Label) (answer : Recorded) (answers : List Recorded) :
    reached label (answer :: answers) =
      (if label ∈ answer.2.executed then 1 else 0) + reached label answers := by
  unfold reached
  rw [List.countP_cons, Nat.add_comm]
  simp

namespace Ending

variable {policy : Policy} {input : Applicant} {s s' : Store}
  {r : Except RegistrationError User} {t : Trace}

/-- An account is only added, and only where the email has none. -/
theorem accounts_eq (h : Ending policy input s r t s') :
    (∃ problem, r = .error problem ∧ s'.accounts = s.accounts) ∨
      r = .ok (s.nextUser policy input) ∧ s.find? input.email = none ∧
        s' = s.looked.saved policy input ∧
        s'.accounts = s.accounts ++ [(input.email, s.nextUser policy input)] := by
  cases h with
  | rejected invalid =>
    exact .inl ⟨_, rfl, rfl⟩
  | known valid found =>
    exact .inl ⟨_, rfl, rfl⟩
  | lost valid new fails =>
    exact .inl ⟨_, rfl, rfl⟩
  | saved valid new works =>
    exact .inr ⟨rfl, new, rfl, Store.accounts_insert (s := s.looked.tried) new _⟩

theorem consistent (h : Ending policy input s r t s') (hs : s.Consistent) : s'.Consistent := by
  rcases h.accounts_eq with ⟨problem, -, haccounts⟩ | ⟨-, hnew, rfl, -⟩
  · exact hs.congr haccounts
  · have hlooked := hs.congr (Store.accounts_looked s)
    exact hlooked.saved policy hnew

/-- No account is changed or removed. -/
theorem isPrefix (h : Ending policy input s r t s') : s.accounts <+: s'.accounts := by
  rcases h.accounts_eq with ⟨problem, -, haccounts⟩ | ⟨-, -, -, haccounts⟩
  · exact haccounts ▸ List.prefix_refl _
  · exact haccounts ▸ List.prefix_append _ _

/-- A registration returns an account exactly if it has added that account and nothing else. -/
theorem ok_iff (h : Ending policy input s r t s') (user : User) :
    r = .ok user ↔ s.find? input.email = none ∧ user.email = input.email ∧
      s'.accounts = s.accounts ++ [(input.email, user)] := by
  rcases h.accounts_eq with ⟨problem, rfl, haccounts⟩ | ⟨rfl, hnew, -, haccounts⟩
  · constructor
    · intro hr
      cases hr
    · -- No list is itself with one more entry.
      rintro ⟨-, -, hadded⟩
      rw [haccounts] at hadded
      simp at hadded
  · constructor
    · intro hr
      cases hr
      exact ⟨hnew, rfl, haccounts⟩
    · rintro ⟨-, -, hadded⟩
      have hlast := List.append_cancel_left (haccounts.symm.trans hadded)
      simp only [List.cons.injEq, Prod.mk.injEq, true_and, and_true] at hlast
      rw [hlast]

/-- A registration that ends in an error leaves the accounts as they are.  It was turned down by
the rules, or by an account of its email, or the store could not save. -/
theorem error_cases {problem : RegistrationError}
    (h : Ending policy input s (.error problem) t s') :
    s'.accounts = s.accounts ∧
      (input.validate = .error problem ∨
        (∃ user, s.find? input.email = some user ∧ problem = .alreadyRegistered user.email) ∨
        policy.savesFail = true ∧ problem = .store ⟨"connection reset"⟩) := by
  cases h with
  | rejected invalid =>
    exact ⟨rfl, .inl invalid⟩
  | known valid found =>
    exact ⟨rfl, .inr (.inl ⟨_, found, rfl⟩)⟩
  | lost valid new fails =>
    exact ⟨rfl, .inr (.inr ⟨fails, rfl⟩)⟩

/-- The operations that are invoked, in order. -/
theorem executed_eq (h : Ending policy input s r t s') :
    t.executed =
      match input.validate, s.find? input.email with
      | .error _, _ => #[]
      | .ok _, some _ => #[findLabel]
      | .ok _, none => #[findLabel, saveLabel] := by
  cases h with
  | rejected invalid =>
    rw [invalid]
  | known valid found =>
    rw [valid, found]
  | lost valid new fails =>
    rw [valid, new]
  | saved valid new works =>
    rw [valid, new]

/-- A fault is recorded exactly if a save was invoked and has failed. -/
theorem fault_eq (h : Ending policy input s r t s') :
    t.fault =
      if saveLabel ∈ t.executed ∧ policy.savesFail = true then some ⟨saveLabel, .operation⟩
      else none := by
  cases h with
  | rejected invalid =>
    simp
  | known valid found =>
    simp [findLabel, saveLabel]
  | lost valid new fails =>
    simp [fails]
  | saved valid new works =>
    simp [works]

theorem finds_eq (h : Ending policy input s r t s') :
    s'.finds = s.finds + if findLabel ∈ t.executed then 1 else 0 := by
  cases h with
  | rejected invalid =>
    simp
  | known valid found =>
    simp [Store.looked]
  | lost valid new fails =>
    simp [Store.looked, Store.tried]
  | saved valid new works =>
    simp [Store.looked, Store.tried, Store.saved, Store.insert]

theorem saves_eq (h : Ending policy input s r t s') :
    s'.saves = s.saves + if saveLabel ∈ t.executed then 1 else 0 := by
  cases h with
  | rejected invalid =>
    simp
  | known valid found =>
    simp [Store.looked, findLabel, saveLabel]
  | lost valid new fails =>
    simp [Store.looked, Store.tried]
  | saved valid new works =>
    simp [Store.looked, Store.tried, Store.saved, Store.insert]

end Ending

/-! ## One after the other -/

/-- Registrations in order, with their results and records, from one store to another. -/
inductive Visited : Store → List Visit → List Recorded → Store → Prop where
  | nil (s : Store) : Visited s [] [] s
  | cons {v : Visit} {visits : List Visit} {s s₁ s₂ : Store}
      {r : Except RegistrationError User} {t : Trace} {answers : List Recorded}
      (first : Ending v.policy v.input s r t s₁) (rest : Visited s₁ visits answers s₂) :
      Visited s (v :: visits) ((r, t) :: answers) s₂

/-- Registrations that are run in order all get to their ends. -/
theorem exists_visited (visits : List Visit) (checked : Checked signature) :
    ∃ answers s', Visited checked.world visits answers s' ∧
      visits.mapM Visit.run checked =
        (answers.map some, ({ checked with world := s' } : Checked signature)) := by
  induction visits generalizing checked with
  | nil =>
    exact ⟨[], checked.world, .nil _, rfl⟩
  | cons v visits ih =>
    rcases interpret_start v.policy v.input checked with ⟨r, t, s₁, hending, hfirst⟩
    rcases ih { checked with world := s₁ } with ⟨answers, s₂, hvisited, hrest⟩
    refine ⟨(r, t) :: answers, s₂, .cons hending hvisited, ?_⟩
    have hfirst' : v.run checked = (some (r, t), { checked with world := s₁ }) := hfirst
    rw [List.mapM_cons]
    show ((v.run checked).1 :: (visits.mapM Visit.run (v.run checked).2).1,
      (visits.mapM Visit.run (v.run checked).2).2) = _
    rw [hfirst', hrest]
    rfl

namespace Visited

variable {visits : List Visit} {answers : List Recorded} {s s' : Store}

theorem consistent (h : Visited s visits answers s') (hs : s.Consistent) : s'.Consistent := by
  induction h with
  | nil s =>
    exact hs
  | cons first _ ih =>
    exact ih (first.consistent hs)

theorem isPrefix (h : Visited s visits answers s') : s.accounts <+: s'.accounts := by
  induction h with
  | nil s =>
    exact List.prefix_refl _
  | cons first _ ih =>
    exact first.isPrefix.trans ih

/-- The lookups are counted, up to what the counter holds. -/
theorem finds_eq (h : Visited s visits answers s') :
    s'.finds = s.finds + .ofNat (reached findLabel answers) := by
  induction h with
  | nil s =>
    simp [reached]
  | cons first _ ih =>
    rw [ih, first.finds_eq, UInt64.add_assoc, reached_cons, UInt64.ofNat_add]
    split <;> rfl

theorem saves_eq (h : Visited s visits answers s') :
    s'.saves = s.saves + .ofNat (reached saveLabel answers) := by
  induction h with
  | nil s =>
    simp [reached]
  | cons first _ ih =>
    rw [ih, first.saves_eq, UInt64.add_assoc, reached_cons, UInt64.ofNat_add]
    split <;> rfl

end Visited

/-- Registrations are run in order on a store that is empty at first, each with a store that works
or with one whose saving fails.  Accounts are under their own emails, their ids are the numbers from
one on, and no account is ever changed or removed.  Both counters tell how many runs have invoked
the operation.  Of the registration that comes next: it returns an account exactly if it has added
that account, to an email without one, and after an error all accounts are as they were; its record
names the operations that it got to, and a fault if the save has failed. -/
theorem visits_keep_accounts (visits : List Visit) :
    ∃ (answers : List Recorded) (s : Store),
      visits.mapM Visit.run opened = (answers.map some, ({ world := s } : Checked signature)) ∧
      s.Consistent ∧
      (∀ more : List Visit,
        s.accounts <+: ((visits ++ more).mapM Visit.run opened).2.world.accounts) ∧
      s.finds = .ofNat (reached findLabel answers) ∧
      s.saves = .ofNat (reached saveLabel answers) ∧
      ∀ v : Visit, ∃ (r : Except RegistrationError User) (t : Trace) (s' : Store),
        v.run ({ world := s } : Checked signature) =
          (some (r, t), ({ world := s' } : Checked signature)) ∧
        (∀ user, r = .ok user ↔ s.find? v.input.email = none ∧ user.email = v.input.email ∧
          s'.accounts = s.accounts ++ [(v.input.email, user)]) ∧
        (∀ problem, r = .error problem → s'.accounts = s.accounts ∧
          (v.input.validate = .error problem ∨
            (∃ user, s.find? v.input.email = some user ∧
              problem = .alreadyRegistered user.email) ∨
            v.policy.savesFail = true ∧ problem = .store ⟨"connection reset"⟩)) ∧
        (t.executed =
          match v.input.validate, s.find? v.input.email with
          | .error _, _ => #[]
          | .ok _, some _ => #[findLabel]
          | .ok _, none => #[findLabel, saveLabel]) ∧
        t.fault =
          if saveLabel ∈ t.executed ∧ v.policy.savesFail = true then
            some ⟨saveLabel, .operation⟩
          else none := by
  rcases exists_visited visits opened with ⟨answers, s, hvisited, hrun⟩
  refine ⟨answers, s, hrun, hvisited.consistent Store.consistent_empty, ?_, ?_, ?_, ?_⟩
  · -- What comes later starts from the store that is there now.
    intro more
    rcases exists_visited more ({ world := s } : Checked signature) with
      ⟨answers', s', hmore, hrest⟩
    have hlast : ((visits ++ more).mapM Visit.run opened).2.world = s' := by
      rw [List.mapM_append]
      show ((more.mapM Visit.run) ((visits.mapM Visit.run opened).2)).2.world = s'
      rw [hrun]
      exact congrArg (fun x => x.2.world) hrest
    rw [hlast]
    exact hmore.isPrefix
  · simpa [opened] using hvisited.finds_eq
  · simpa [opened] using hvisited.saves_eq
  · intro v
    rcases interpret_start v.policy v.input ({ world := s } : Checked signature) with
      ⟨r, t, s', hending, hvisit⟩
    refine ⟨r, t, s', hvisit, hending.ok_iff, ?_, hending.executed_eq, hending.fault_eq⟩
    rintro problem rfl
    exact hending.error_cases

end Deferred.Registration
