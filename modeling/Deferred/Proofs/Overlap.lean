import Deferred.Proofs.Stages
import Mathlib.Data.List.Induction
import Mathlib.Data.List.Pairwise
import Mathlib.Logic.Function.Basic

/-!
# Overlap — registrations over one store, in any order of their steps

A step of the interpreter invokes one operation, and between the two steps of a registration any
number of others may be taken.  So its email may get an account after its own lookup has found none,
and its save then takes the place of that account.  Such a save is stale.  Nothing in the flow or in
the store keeps it from working, and everything that can go wrong comes of it.

* `Hall`, `Hall.step`, `Hall.run` — registrations under way, and a schedule of their steps;
* `Hall.Save`, `Hall.saves` — the saves of a schedule, in order, and which of them were stale;
* `Moved`, `Hall.Stepped` — all that one step can do;
* `Hall.Recorded` — what a list of saves tells about the registrations and the store;
* `Hall.Recorded.step`, `Hall.Recorded.run` — one more step, and a whole schedule;
* `overlapping_registrations` — what becomes of accounts, of the users that are returned, and of
  their ids;
* `account_replaced` — a schedule in which a stale save goes wrong in every way.
-/

namespace Deferred.Registration

open Typed (Boxed Checked)

/-! ## Steps -/

/-- The label of the operation that a registration waits for. -/
def waitsFor : Advance signature.untyped → Option Label
  | .next e => e.label?
  | .fault _ _ => none

/-- The result of a registration that has ended. -/
def resultOf : Advance signature.untyped → Option (Except RegistrationError User)
  | .next e => Typed.Effect.outcome? (S := signature) (v := Kind.user) (e := Kind.problem) ⟨e⟩
  | .fault _ (b : Boxed kinds) => (b.as? Kind.problem).map .error

/-- Move a registration on by one step of the interpreter.  One that has ended stays as it is. -/
def move (policy : Policy) :
    Advance signature.untyped → Action signature.untyped (Advance signature.untyped)
  | .next (.command c) => c.advance (meaning policy).untyped
  | ended => pure ended

theorem move_command (policy : Policy) (c : Command signature.untyped) :
    move policy (.next (.command c)) = c.advance (meaning policy).untyped :=
  rfl

/-- A store, and where the registrations over it stand. -/
structure Hall (ι : Type) where
  checked : Checked signature
  standing : ι → Advance signature.untyped

namespace Hall

variable {ι : Type}

def store (h : Hall ι) : Store := h.checked.world

/-- A registration has ended in success. -/
def Returned (h : Hall ι) (i : ι) (user : User) : Prop :=
  resultOf (h.standing i) = some (.ok user)

/-- All registrations are started, and the store is empty. -/
def opened (policy : Policy) (inputs : ι → Applicant) : Hall ι where
  checked := Registration.opened
  standing i := .next (start policy (inputs i) Registration.opened).1.untyped

variable [DecidableEq ι]

/-- One registration takes a step. -/
def step (policy : Policy) (h : Hall ι) (i : ι) : Hall ι where
  checked := (move policy (h.standing i) h.checked).2
  standing := Function.update h.standing i (move policy (h.standing i) h.checked).1

/-- The registrations take steps in the order of a schedule. -/
def run (policy : Policy) (h : Hall ι) (schedule : List ι) : Hall ι :=
  schedule.foldl (step policy) h

/-- A save that has worked: by whom, the account that was stored, and whether its email had one
already. -/
structure Save (ι : Type) where
  who : ι
  user : User
  stale : Bool
  deriving DecidableEq

/-- What a registration saves if it is its turn to save. -/
def nextSave (policy : Policy) (inputs : ι → Applicant) (h : Hall ι) (i : ι) : Save ι where
  who := i
  user := h.store.nextUser policy (inputs i)
  stale := (h.store.find? (inputs i).email).isSome

/-- The save that a registration makes if it takes a step now.  A save that fails is none. -/
def save? (policy : Policy) (inputs : ι → Applicant) (h : Hall ι) (i : ι) : Option (Save ι) :=
  if waitsFor (h.standing i) = some saveLabel ∧ policy.savesFail = false then
    some (h.nextSave policy inputs i)
  else none

/-- The saves of a schedule, in order. -/
def saves (policy : Policy) (inputs : ι → Applicant) : Hall ι → List ι → List (Save ι)
  | _, [] => []
  | h, i :: rest => (h.save? policy inputs i).toList ++ saves policy inputs (h.step policy i) rest

end Hall

/-! ## All that a step can do -/

/-- The places where a registration can stand. -/
inductive Place (policy : Policy) (input : Applicant) : Advance signature.untyped → Prop where
  | beforeLookup : Place policy input (.next (.command (lookingUp policy input)))
  | beforeSave : Place policy input (.next (.command (saving policy input)))
  | turnedDown (problem : RegistrationError) :
      Place policy input (.next (turnedDown problem))
  | lost (problem : RegistrationError) :
      Place policy input (.fault .operation (Boxed.mk (U := kinds) Kind.problem problem))
  | registered (user : User) : Place policy input (.next (registered user))

/-- What becomes of a registration and of the store in one step. -/
inductive Moved (policy : Policy) (input : Applicant) (s : Store) :
    Advance signature.untyped → Advance signature.untyped → Store → Prop where
  | ended {a : Advance signature.untyped} (h : waitsFor a = none) : Moved policy input s a a s
  | known {user : User} (found : s.find? input.email = some user) :
      Moved policy input s (.next (.command (lookingUp policy input)))
        (.next (turnedDown (.alreadyRegistered user.email))) s.looked
  | unknown (new : s.find? input.email = none) :
      Moved policy input s (.next (.command (lookingUp policy input)))
        (.next (.command (saving policy input))) s.looked
  | lost (fails : policy.savesFail = true) :
      Moved policy input s (.next (.command (saving policy input)))
        (.fault .operation (Boxed.mk (U := kinds) Kind.problem
          (RegistrationError.store ⟨"connection reset"⟩))) s.tried
  | saved (works : policy.savesFail = false) :
      Moved policy input s (.next (.command (saving policy input)))
        (.next (registered (s.nextUser policy input))) (s.saved policy input)

section

variable {policy : Policy} {input : Applicant} {a : Advance signature.untyped}

theorem Place.start (policy : Policy) (input : Applicant) :
    Place policy input (.next (begun policy input)) := by
  unfold begun
  cases input.validate with
  | ok _ => exact .beforeLookup
  | error problem => exact .turnedDown problem

theorem Place.moved (h : Place policy input a) (checked : Checked signature) :
    Moved policy input checked.world a (move policy a checked).1
      (move policy a checked).2.world := by
  cases h with
  | beforeLookup =>
    rw [move_command, advance_lookingUp]
    cases hfound : checked.world.find? input.email with
    | none => exact .unknown hfound
    | some user => exact .known hfound
  | beforeSave =>
    cases hsaves : policy.savesFail with
    | false =>
      rw [move_command, advance_saving policy input checked hsaves]
      exact .saved hsaves
    | true =>
      rw [move_command, advance_saving_fails policy input checked hsaves]
      exact .lost hsaves
  | turnedDown problem => exact .ended rfl
  | lost problem => exact .ended rfl
  | registered user => exact .ended rfl

theorem Moved.place {s s' : Store} {b : Advance signature.untyped}
    (h : Moved policy input s a b s') (ha : Place policy input a) : Place policy input b := by
  cases h with
  | ended h => exact ha
  | known found => exact .turnedDown _
  | unknown new => exact .beforeSave
  | lost fails => exact .lost _
  | saved works => exact .registered _

end

/-- Either nothing was saved, or the registration was about to save and has ended in success. -/
theorem Moved.observed {policy : Policy} {input : Applicant} {a b : Advance signature.untyped}
    {s s' : Store} (h : Moved policy input s a b s') :
    (s'.accounts = s.accounts ∧ (waitsFor a = some saveLabel → policy.savesFail = true) ∧
      (∀ user, resultOf b = some (.ok user) ↔ resultOf a = some (.ok user)) ∧
      (waitsFor b = some saveLabel →
        b = a ∨ waitsFor a = some findLabel ∧ s.find? input.email = none)) ∨
    (policy.savesFail = false ∧ waitsFor a = some saveLabel ∧ resultOf a = none ∧
      s' = s.saved policy input ∧ resultOf b = some (.ok (s.nextUser policy input)) ∧
      waitsFor b = none) := by
  cases h with
  | ended h =>
    refine .inl ⟨rfl, fun hsave => ?_, fun _ => Iff.rfl, fun _ => .inl rfl⟩
    cases h.symm.trans hsave
  | known found =>
    refine .inl ⟨rfl, fun hsave => ?_, fun user => ⟨fun hresult => ?_, fun hresult => ?_⟩,
      fun hsave => ?_⟩
    · exact absurd (Option.some.inj hsave) findLabel_ne_saveLabel
    · cases hresult
    · cases hresult
    · cases hsave
  | unknown new =>
    refine .inl ⟨rfl, fun hsave => ?_, fun user => Iff.rfl, fun _ => .inr ⟨rfl, new⟩⟩
    exact absurd (Option.some.inj hsave) findLabel_ne_saveLabel
  | lost fails =>
    refine .inl ⟨rfl, fun _ => fails, fun user => ⟨fun hresult => ?_, fun hresult => ?_⟩,
      fun hsave => ?_⟩
    · cases hresult
    · cases hresult
    · cases hsave
  | saved works =>
    exact .inr ⟨works, rfl, rfl, rfl, rfl, rfl⟩

namespace Hall

variable {ι : Type} {policy : Policy} {inputs : ι → Applicant} {h h' : Hall ι}
  {email : String}

/-- A step as it looks to the others: no account is saved, or that of the registration is. -/
inductive Stepped (policy : Policy) (inputs : ι → Applicant) (h : Hall ι) (i : ι)
    (h' : Hall ι) : Prop where
  | quiet (unsaved : h.save? policy inputs i = none)
      (accounts : h'.store.accounts = h.store.accounts)
      (returned : ∀ j user, h'.Returned j user ↔ h.Returned j user)
      (waiting : ∀ j, waitsFor (h'.standing j) = some saveLabel →
        waitsFor (h.standing j) = some saveLabel ∨
          j = i ∧ waitsFor (h.standing i) = some findLabel ∧
            h.store.find? (inputs i).email = none)
  | saves (saved : h.save? policy inputs i = some (h.nextSave policy inputs i))
      (store : h'.store = h.store.saved policy (inputs i))
      (unfinished : ∀ user, ¬ h.Returned i user)
      (returned : ∀ user, h'.Returned i user ↔ user = h.store.nextUser policy (inputs i))
      (done : waitsFor (h'.standing i) = none)
      (others : ∀ j, j ≠ i → h'.standing j = h.standing j)

/-- All registrations stand at places of the flow. -/
def Placed (policy : Policy) (inputs : ι → Applicant) (h : Hall ι) : Prop :=
  ∀ i, Place policy (inputs i) (h.standing i)

theorem standing_opened (policy : Policy) (inputs : ι → Applicant) (i : ι) :
    (opened policy inputs).standing i = .next (begun policy (inputs i)) := by
  show Advance.next (start policy (inputs i) _).1.untyped = _
  rw [start_eq]
  rfl

theorem placed_opened (policy : Policy) (inputs : ι → Applicant) :
    (opened policy inputs).Placed policy inputs := by
  intro i
  rw [standing_opened]
  exact .start policy (inputs i)

theorem not_returned_opened (policy : Policy) (inputs : ι → Applicant) (i : ι) (user : User) :
    ¬ (opened policy inputs).Returned i user := by
  unfold Returned
  rw [standing_opened, begun]
  cases (inputs i).validate with
  | ok _ => exact fun hreturned => nomatch hreturned
  | error problem => exact fun hreturned => nomatch hreturned

theorem waitsFor_opened (policy : Policy) (inputs : ι → Applicant) (i : ι) :
    waitsFor ((opened policy inputs).standing i) ≠ some saveLabel := by
  rw [standing_opened, begun]
  cases (inputs i).validate with
  | ok _ => exact fun hsave => findLabel_ne_saveLabel (Option.some.inj hsave)
  | error problem => exact fun hsave => nomatch hsave

/-- Of a step that saves: what the others have returned, they return still. -/
theorem returned_of_ne {i j : ι} {user : User} (hothers : ∀ j, j ≠ i → h'.standing j = h.standing j)
    (hne : j ≠ i) : h'.Returned j user ↔ h.Returned j user := by
  unfold Returned
  rw [hothers j hne]

section

variable [DecidableEq ι] {i : ι}

theorem step_standing_self (h : Hall ι) (i : ι) :
    (h.step policy i).standing i = (move policy (h.standing i) h.checked).1 :=
  Function.update_self ..

theorem step_standing_of_ne (h : Hall ι) {i j : ι} (hne : j ≠ i) :
    (h.step policy i).standing j = h.standing j :=
  Function.update_of_ne hne ..

namespace Placed

variable (hplaced : h.Placed policy inputs)

include hplaced

theorem moved (i : ι) :
    Moved policy (inputs i) h.store (h.standing i) ((h.step policy i).standing i)
      (h.step policy i).store := by
  rw [step_standing_self]
  exact (hplaced i).moved h.checked

theorem step (i : ι) : (h.step policy i).Placed policy inputs := by
  intro j
  by_cases hji : j = i
  · subst hji
    exact (hplaced.moved j).place (hplaced j)
  · rw [step_standing_of_ne h hji]
    exact hplaced j

theorem stepped (i : ι) : h.Stepped policy inputs i (h.step policy i) := by
  have hothers : ∀ j, j ≠ i → (h.step policy i).standing j = h.standing j :=
    fun j hne => step_standing_of_ne h hne
  rcases (hplaced.moved i).observed with
    ⟨haccounts, hlost, hresult, hwaits⟩ | ⟨hworks, hturn, hnone, hstore, hresult, hdone⟩
  · refine .quiet ?_ haccounts (fun j user => ?_) (fun j hj => ?_)
    · refine if_neg ?_
      rintro ⟨hturn, hworks⟩
      cases hworks.symm.trans (hlost hturn)
    · by_cases hji : j = i
      · subst hji
        exact hresult user
      · unfold Returned
        rw [hothers j hji]
    · by_cases hji : j = i
      · subst hji
        rcases hwaits hj with hsame | hnew
        · exact .inl (hsame ▸ hj)
        · exact .inr ⟨rfl, hnew⟩
      · exact .inl (hothers j hji ▸ hj)
  · refine .saves (if_pos ⟨hturn, hworks⟩) hstore (fun user hreturned => ?_) (fun user => ?_) hdone
      hothers
    · cases hnone.symm.trans hreturned
    · constructor
      · intro hreturned
        cases hresult.symm.trans hreturned
        rfl
      · rintro rfl
        exact hresult

theorem run (schedule : List ι) : (h.run policy schedule).Placed policy inputs := by
  induction schedule generalizing h with
  | nil =>
    exact hplaced
  | cons i rest ih =>
    exact ih (hplaced.step i)

end Placed

end

/-! ## Lists of saves -/

/-- The account of an email as the saves have it: that of the last save. -/
def account? (saves : List (Save ι)) (email : String) : Option User :=
  (saves.reverse.find? fun save => save.user.email = email).map Save.user

theorem account?_append (first rest : List (Save ι)) (email : String) :
    account? (first ++ rest) email = (account? rest email).or (account? first email) := by
  simp [account?, List.find?_append, Option.map_or]

theorem account?_singleton (save : Save ι) (email : String) :
    account? [save] email = if save.user.email = email then some save.user else none := by
  by_cases hemail : save.user.email = email <;> simp [account?, hemail]

theorem account?_eq_none_iff {saves : List (Save ι)} :
    account? saves email = none ↔ ∀ save ∈ saves, save.user.email ≠ email := by
  simp [account?]

theorem isSome_account?_iff {saves : List (Save ι)} :
    (account? saves email).isSome ↔ ∃ save ∈ saves, save.user.email = email := by
  simp [account?]

/-- How many accounts were added. -/
def added (saves : List (Save ι)) : Nat := saves.countP fun save => !save.stale

theorem added_append (first rest : List (Save ι)) :
    added (first ++ rest) = added first + added rest :=
  List.countP_append

theorem added_singleton (save : Save ι) : added [save] = if save.stale then 0 else 1 := by
  cases hstale : save.stale <;> simp [added, hstale]

theorem added_eq_zero_iff {saves : List (Save ι)} :
    added saves = 0 ↔ ∀ save ∈ saves, save.stale = true := by
  simp [added, List.countP_eq_zero]

/-- What a save is like after those before it.  It is stale exactly if one of them was of its email,
and its id counts those that were not stale. -/
structure Follows (inputs : ι → Applicant) (before : List (Save ι)) (save : Save ι) : Prop where
  email : save.user.email = (inputs save.who).email
  once : ∀ earlier ∈ before, earlier.who ≠ save.who
  stale : save.stale = true ↔ ∃ earlier ∈ before, earlier.user.email = save.user.email
  id : save.user.id = added before + 1

/-- What every entry of a list has to do with those before it, it has to do with each of them. -/
theorem pairwise_of_prefix {α : Type} {R : α → α → Prop} {l : List α}
    (h : ∀ before b, before ++ [b] <+: l → ∀ a ∈ before, R a b) : l.Pairwise R := by
  induction l using List.reverseRecOn with
  | nil =>
    exact .nil
  | append_singleton l b ih =>
    have hl : l.Pairwise R :=
      ih fun before b hbefore => h before b (hbefore.trans (List.prefix_append l _))
    have hlast : ∀ a ∈ l, R a b := h l b (List.prefix_refl _)
    exact List.pairwise_append.2 ⟨hl, List.pairwise_singleton R b, by simpa using hlast⟩

/-- If neither was stale, two saves are of different emails and have given different ids. -/
def Save.Apart (a b : Save ι) : Prop :=
  a.stale = false → b.stale = false → a.user.email ≠ b.user.email ∧ a.user.id ≠ b.user.id

instance : Std.Symm (@Save.Apart ι) where
  symm _ _ h hb ha := (h ha hb).imp Ne.symm Ne.symm

/-! ## What the saves tell -/

/-- The saves so far tell which registrations have ended in success and with which account, and what
is stored. -/
structure Recorded (policy : Policy) (inputs : ι → Applicant) (h : Hall ι)
    (saves : List (Save ι)) : Prop where
  placed : h.Placed policy inputs
  returned : ∀ i user, h.Returned i user ↔ ∃ save ∈ saves, save.who = i ∧ save.user = user
  stored : ∀ email, h.store.find? email = account? saves email
  size : h.store.size = added saves
  follows : ∀ before save, before ++ [save] <+: saves → Follows inputs before save

theorem recorded_opened (policy : Policy) (inputs : ι → Applicant) :
    (opened policy inputs).Recorded policy inputs [] where
  placed := placed_opened policy inputs
  returned i user := by simpa using not_returned_opened policy inputs i user
  stored _ := rfl
  size := rfl
  follows before save hbefore := by simp at hbefore

namespace Recorded

variable {past : List (Save ι)} (hrec : h.Recorded policy inputs past)

include hrec

/-- Whoever makes a save now has not made one before, for it has not ended yet. -/
theorem follows_next {i : ι} (hunfinished : ∀ user, ¬ h.Returned i user) :
    Follows inputs past (h.nextSave policy inputs i) where
  email := rfl
  once := by
    intro earlier hearlier hwho
    exact hunfinished _ ((hrec.returned i _).2 ⟨earlier, hearlier, hwho, rfl⟩)
  stale := by
    have hstored := hrec.stored (inputs i).email
    show (h.store.find? (inputs i).email).isSome ↔ _
    rw [hstored]
    exact isSome_account?_iff
  id := congrArg (· + 1) hrec.size

/-- After a save, the accounts are those of the saves with it. -/
theorem stored_next (i : ι) (email : String) :
    (h.store.saved policy (inputs i)).find? email =
      account? (past ++ [h.nextSave policy inputs i]) email := by
  rw [account?_append, account?_singleton]
  by_cases hemail : (h.nextSave policy inputs i).user.email = email
  · have hself := Store.find?_saved_self h.store policy (inputs i)
    rw [if_pos hemail, ← hemail]
    exact hself
  · have hother := Store.find?_saved_of_ne h.store policy (inputs i) (Ne.symm hemail)
    rw [if_neg hemail]
    exact hother.trans (hrec.stored email)

/-- An account is added by a save that is not stale. -/
theorem size_next (i : ι) :
    (h.store.saved policy (inputs i)).size = added (past ++ [h.nextSave policy inputs i]) := by
  rw [Store.size_saved, added_append, added_singleton, ← hrec.size]
  show _ = _ + if (h.store.find? (inputs i).email).isSome = true then 0 else 1
  split <;> rfl

/-- Of two saves in order, the first is by another registration, and if it is of the same email the
second is stale. -/
theorem pairwise : past.Pairwise fun a b =>
    a.who ≠ b.who ∧ (a.user.email = b.user.email → b.stale = true) := by
  refine pairwise_of_prefix fun before b hbefore a ha => ?_
  have hb := hrec.follows before b hbefore
  exact ⟨hb.once a ha, fun hemail => hb.stale.2 ⟨a, ha, hemail⟩⟩

/-- An account stays until the next save of its email. -/
theorem find?_of_last {before after : List (Save ι)} {save : Save ι}
    (hpast : past = before ++ save :: after)
    (hlast : ∀ later ∈ after, later.user.email ≠ save.user.email) :
    h.store.find? save.user.email = some save.user := by
  have hafter : account? after save.user.email = none := account?_eq_none_iff.2 hlast
  have hsingle := account?_singleton save save.user.email
  rw [if_pos rfl] at hsingle
  rw [hrec.stored, hpast, ← List.singleton_append, account?_append, account?_append, hafter,
    hsingle]
  rfl

/-- Ids are given twice only while no account is added. -/
theorem id_eq_iff {before between : List (Save ι)} {a b : Save ι}
    (hbefore : before ++ a :: between ++ [b] <+: past) :
    a.user.id = b.user.id ↔ ∀ save ∈ a :: between, save.stale = true := by
  have ha : Follows inputs before a := by
    refine hrec.follows before a (List.IsPrefix.trans ?_ hbefore)
    exact ⟨between ++ [b], by simp⟩
  have hb : Follows inputs (before ++ a :: between) b := hrec.follows _ b hbefore
  rw [ha.id, hb.id, added_append, ← added_eq_zero_iff]
  omega

theorem email_of_mem {save : Save ι} (hsave : save ∈ past) :
    save.user.email = (inputs save.who).email := by
  rcases List.append_of_mem hsave with ⟨before, after, rfl⟩
  exact (hrec.follows before save ⟨after, by simp⟩).email

/-- Of two saves that were not stale, the ids are different, for the first one has added an account,
and so are the emails. -/
theorem pairwise_apart : past.Pairwise Save.Apart := by
  refine pairwise_of_prefix fun before b hbefore a ha hfresh hfresh' =>
    ⟨fun hemail => ?_, fun hid => ?_⟩
  · have hstale := (hrec.follows before b hbefore).stale.2 ⟨a, ha, hemail⟩
    cases hfresh'.symm.trans hstale
  · rcases List.append_of_mem ha with ⟨earlier, between, rfl⟩
    have hstale := (hrec.id_eq_iff hbefore).1 hid a List.mem_cons_self
    cases hfresh.symm.trans hstale

/-- Registrations that have ended in success without a stale save are of different emails, and have
returned different ids. -/
theorem apart {i j : ι} {user user' : User} (hi : h.Returned i user) (hj : h.Returned j user')
    (hij : i ≠ j) (hfresh : ∀ save ∈ past, save.stale = true → save.who ≠ i ∧ save.who ≠ j) :
    (inputs i).email ≠ (inputs j).email ∧ user.id ≠ user'.id := by
  rcases (hrec.returned i user).1 hi with ⟨a, ha, rfl, rfl⟩
  rcases (hrec.returned j user').1 hj with ⟨b, hb, rfl, rfl⟩
  have haFresh : a.stale = false := eq_false_of_ne_true fun hstale => (hfresh a ha hstale).1 rfl
  have hbFresh : b.stale = false := eq_false_of_ne_true fun hstale => (hfresh b hb hstale).2 rfl
  have hab : a ≠ b := fun heq => hij (congrArg Save.who heq)
  have hapart := hrec.pairwise_apart.forall ha hb hab haFresh hbFresh
  rw [hrec.email_of_mem ha, hrec.email_of_mem hb] at hapart
  exact hapart

/-! ## Steps and schedules -/

section

variable [DecidableEq ι]

/-- One step: a save that is made follows those before it. -/
theorem step (i : ι) :
    (h.step policy i).Recorded policy inputs (past ++ (h.save? policy inputs i).toList) := by
  have hplaced := hrec.placed.step i
  cases hrec.placed.stepped i with
  | quiet hunsaved haccounts hreturned _ =>
    have hsame : past ++ (h.save? policy inputs i).toList = past := by simp [hunsaved]
    have hsize : (h.step policy i).store.size = h.store.size := congrArg List.length haccounts
    rw [hsame]
    refine ⟨hplaced, fun j user => ?_, fun email => ?_, hsize.trans hrec.size, hrec.follows⟩
    · exact (hreturned j user).trans (hrec.returned j user)
    · exact (Store.find?_congr haccounts email).trans (hrec.stored email)
  | saves hsaved hstore hunfinished hreturned _ hothers =>
    let new := h.nextSave policy inputs i
    have hmore : past ++ (h.save? policy inputs i).toList = past ++ [new] := by
      rw [hsaved, Option.toList_some]
    have hnew : Follows inputs past new := hrec.follows_next hunfinished
    rw [hmore]
    refine ⟨hplaced, fun j user => ?returned, fun email => ?stored, ?size,
      fun before save hbefore => ?follows⟩
    case returned =>
      -- Whoever saves has made no save before, so the new one is the only one to return.
      by_cases hji : j = i
      · subst hji
        rw [hreturned user]
        constructor
        · rintro rfl
          exact ⟨new, by simp, rfl, rfl⟩
        · rintro ⟨save, hsave, hwho, rfl⟩
          rcases List.mem_append.1 hsave with hold | hlast
          · exact absurd hwho (hnew.once save hold)
          · cases List.mem_singleton.1 hlast
            rfl
      · have hne : new.who ≠ j := fun heq => hji heq.symm
        rw [returned_of_ne hothers hji, hrec.returned j user]
        simp [hne]
    case stored =>
      rw [hstore]
      exact hrec.stored_next i email
    case size =>
      rw [hstore]
      exact hrec.size_next i
    case follows =>
      -- Only the last of the saves is new to the list.
      rcases List.prefix_concat_iff.1 hbefore with hlast | hold
      · rcases List.append_inj' hlast rfl with ⟨rfl, hsave⟩
        cases hsave
        exact hnew
      · exact hrec.follows before save hold

/-- A whole schedule: its saves are put behind those that were made before. -/
theorem run (schedule : List ι) :
    (h.run policy schedule).Recorded policy inputs
      (past ++ h.saves policy inputs schedule) := by
  induction schedule generalizing h past with
  | nil =>
    rw [saves, List.append_nil]
    exact hrec
  | cons i rest ih =>
    have hrest := ih (hrec.step i)
    rw [List.append_assoc] at hrest
    exact hrest

/-- An account that is there is not removed, and only a stale save takes its place. -/
theorem find?_run {user : User} (hfind : h.store.find? email = some user) (schedule : List ι) :
    ((h.run policy schedule).store.find? email).isSome ∧
      ((∀ save ∈ h.saves policy inputs schedule, save.stale = true → save.user.email ≠ email) →
        (h.run policy schedule).store.find? email = some user) := by
  have hrun := hrec.run schedule
  have hpast : account? past email = some user := (hrec.stored email).symm.trans hfind
  rcases isSome_account?_iff.1 (Option.isSome_iff_exists.2 ⟨user, hpast⟩) with
    ⟨first, hfirst, hfirstEmail⟩
  have hstored := hrun.stored email
  rw [account?_append, hpast] at hstored
  rw [hstored]
  constructor
  · cases account? (h.saves policy inputs schedule) email <;> rfl
  · intro hfresh
    -- A later save of the email comes after the first one, so it would be stale.
    have hnone : account? (h.saves policy inputs schedule) email = none := by
      refine account?_eq_none_iff.2 fun save hsave hemail => ?_
      rcases List.append_of_mem hsave with ⟨between, after, hsaves⟩
      have hfollows : Follows inputs (past ++ between) save :=
        hrun.follows _ _ ⟨after, by simp [hsaves]⟩
      have hstale : save.stale = true :=
        hfollows.stale.2 ⟨first, List.mem_append_left _ hfirst, hfirstEmail.trans hemail.symm⟩
      exact hfresh save hsave hstale hemail
    rw [hnone]
    rfl

/-- A save works whenever it is its turn, also where it is stale. -/
theorem saved (works : policy.savesFail = false) {i : ι}
    (hturn : waitsFor (h.standing i) = some saveLabel) :
    ∃ user, (h.step policy i).Returned i user ∧
      (h.step policy i).store.find? (inputs i).email = some user := by
  have hsave : h.save? policy inputs i = some (h.nextSave policy inputs i) := if_pos ⟨hturn, works⟩
  have hstep := hrec.step i
  rw [hsave, Option.toList_some] at hstep
  have hstored : (h.step policy i).store.find? (h.nextSave policy inputs i).user.email =
      some (h.nextSave policy inputs i).user := hstep.find?_of_last rfl (by simp)
  refine ⟨(h.nextSave policy inputs i).user, ?_, hstored⟩
  exact (hstep.returned i _).2 ⟨h.nextSave policy inputs i, by simp, rfl, rfl⟩

end

end Recorded

section

variable [DecidableEq ι]

theorem run_concat (h : Hall ι) (schedule : List ι) (i : ι) :
    h.run policy (schedule ++ [i]) = (h.run policy schedule).step policy i :=
  List.foldl_concat ..

/-- Whoever is about to save has looked its email up before, and there was no account. -/
theorem looked_before (policy : Policy) (inputs : ι → Applicant) {schedule : List ι} {i : ι}
    (hturn : waitsFor (((opened policy inputs).run policy schedule).standing i) = some saveLabel) :
    ∃ earlier later, schedule = earlier ++ i :: later ∧
      waitsFor (((opened policy inputs).run policy earlier).standing i) = some findLabel ∧
      ((opened policy inputs).run policy earlier).store.find? (inputs i).email = none := by
  induction schedule using List.reverseRecOn with
  | nil =>
    exact absurd hturn (waitsFor_opened policy inputs i)
  | append_singleton schedule k ih =>
    have hplaced := (placed_opened policy inputs).run schedule
    rw [run_concat] at hturn
    -- One step before, it was about to save already, or it was this step that looked up.
    have hbefore : waitsFor (((opened policy inputs).run policy schedule).standing i) =
        some saveLabel ∨ i = k ∧
        waitsFor (((opened policy inputs).run policy schedule).standing k) = some findLabel ∧
        ((opened policy inputs).run policy schedule).store.find? (inputs k).email = none := by
      cases hplaced.stepped k with
      | quiet _ _ _ hwaiting =>
        exact hwaiting i hturn
      | saves _ _ _ _ hdone hothers =>
        by_cases hik : i = k
        · subst hik
          cases hdone.symm.trans hturn
        · rw [hothers i hik] at hturn
          exact .inl hturn
    rcases hbefore with hturn' | ⟨rfl, hlookup⟩
    · rcases ih hturn' with ⟨earlier, later, rfl, hlookup⟩
      exact ⟨earlier, later ++ [k], by simp, hlookup⟩
    · exact ⟨schedule, [], rfl, hlookup⟩

/-- Registrations over one store, which is empty at first, take their steps in any order.

* A registration has ended in success exactly if it has made a save, and returned what it saved.
* Of two saves, the later one is by another registration, and if it is of the same email it is
  stale.
* Registrations that have ended in success without a stale save are of different emails, and have
  returned users with different ids, whatever else was saved.
* A save is of the email of its registration, and it is stale exactly if there was a save of that
  email before.
* What a save has stored is stored still, unless there was a later save of its email.
* An account that is there is never removed, and only a stale save of its email takes its place.
* Two saves have given one id exactly if the first of them was stale, and every save between the two
  as well.
* If saves work, a registration that is about to save ends in success with its next step, and its
  account is stored, also if another one was there.
* Whoever is about to save has looked its email up, and there was no account at that moment. -/
theorem overlapping_registrations (policy : Policy) (inputs : ι → Applicant)
    (schedule : List ι) :
    let first := opened policy inputs
    let h := first.run policy schedule
    let saves := first.saves policy inputs schedule
    (∀ i user, h.Returned i user ↔ ∃ save ∈ saves, save.who = i ∧ save.user = user) ∧
    saves.Pairwise (fun a b =>
      a.who ≠ b.who ∧ (a.user.email = b.user.email → b.stale = true)) ∧
    (∀ i j user user', h.Returned i user → h.Returned j user' → i ≠ j →
      (∀ save ∈ saves, save.stale = true → save.who ≠ i ∧ save.who ≠ j) →
      (inputs i).email ≠ (inputs j).email ∧ user.id ≠ user'.id) ∧
    (∀ before save, before ++ [save] <+: saves →
      save.user.email = (inputs save.who).email ∧
      (save.stale = true ↔ ∃ earlier ∈ before, earlier.user.email = save.user.email)) ∧
    (∀ before save after, saves = before ++ save :: after →
      (∀ later ∈ after, later.user.email ≠ save.user.email) →
      h.store.find? save.user.email = some save.user) ∧
    (∀ email user more, h.store.find? email = some user →
      ((h.run policy more).store.find? email).isSome ∧
      ((∀ save ∈ h.saves policy inputs more, save.stale = true → save.user.email ≠ email) →
        (h.run policy more).store.find? email = some user)) ∧
    (∀ before a between b, before ++ a :: between ++ [b] <+: saves →
      (a.user.id = b.user.id ↔ ∀ save ∈ a :: between, save.stale = true)) ∧
    (policy.savesFail = false → ∀ i, waitsFor (h.standing i) = some saveLabel →
      ∃ user, (h.step policy i).Returned i user ∧
        (h.step policy i).store.find? (inputs i).email = some user) ∧
    ∀ i, waitsFor (h.standing i) = some saveLabel →
      ∃ earlier later, schedule = earlier ++ i :: later ∧
        waitsFor ((first.run policy earlier).standing i) = some findLabel ∧
        (first.run policy earlier).store.find? (inputs i).email = none := by
  intro first h saves
  have hrec : h.Recorded policy inputs saves := (recorded_opened policy inputs).run schedule
  -- Each part reads off the saves, apart from the last one, which is about what no save tells.
  refine ⟨hrec.returned, hrec.pairwise, ?_, ?_, ?_, ?_, ?_, ?_, ?_⟩
  · intro i j user user' hi hj hij hfresh
    exact hrec.apart hi hj hij hfresh
  · intro before save hbefore
    have hfollows := hrec.follows before save hbefore
    exact ⟨hfollows.email, hfollows.stale⟩
  · intro before save after hsaves hlast
    exact hrec.find?_of_last hsaves hlast
  · intro email user more hfind
    exact hrec.find?_run hfind more
  · intro before a between b hbefore
    exact hrec.id_eq_iff hbefore
  · intro works i hturn
    exact hrec.saved works hturn
  · intro i hturn
    exact looked_before policy inputs hturn

end

/-! ## Three applicants -/

/-- Two applicants with one email, and one with another. -/
def rivals : Fin 3 → Applicant
  | 0 => ⟨"ada@example.org", "correct horse"⟩
  | 1 => ⟨"ada@example.org", "battery staple"⟩
  | 2 => ⟨"bob@example.org", "correct horse"⟩

instance (h : Hall (Fin 3)) (i : Fin 3) (user : User) : Decidable (h.Returned i user) :=
  inferInstanceAs (Decidable (resultOf (h.standing i) = some (.ok user)))

/-- The third applicant registers first.  Then both lookups of the other email come before the save
of the first applicant, and the second one is about to save as well.  So far no save was stale, and
the two users have different ids.  The save that comes next is stale and works all the same, while
the account of the third applicant stays. -/
theorem overlapping_registrations_of_rivals :
    let first := opened .detailed rivals
    let h := first.run .detailed [2, 2, 0, 1, 0]
    let bob : User := ⟨1, "bob@example.org", "hashed_correct horse"⟩
    let ada : User := ⟨2, "ada@example.org", "hashed_correct horse"⟩
    first.saves .detailed rivals [2, 2, 0, 1, 0] = [⟨2, bob, false⟩, ⟨0, ada, false⟩] ∧
      h.saves .detailed rivals [1] = [⟨1, ⟨3, ada.email, "hashed_battery staple"⟩, true⟩] ∧
      h.Returned 2 bob ∧ h.Returned 0 ada ∧ (rivals 2).email ≠ (rivals 0).email ∧
      bob.id ≠ ada.id ∧
      h.store.find? bob.email = some bob ∧
      (h.run .detailed [1]).store.find? bob.email = some bob ∧
      waitsFor (h.standing 1) = some saveLabel ∧
      (∃ earlier later, [2, 2, 0, 1, 0] = earlier ++ 1 :: later ∧
        waitsFor ((first.run .detailed earlier).standing 1) = some findLabel ∧
        (first.run .detailed earlier).store.find? (rivals 1).email = none) ∧
      ∃ user, (h.step .detailed 1).Returned 1 user := by
  intro first h bob ada
  have hsaves : (opened .detailed rivals).saves .detailed rivals [2, 2, 0, 1, 0] =
      [⟨2, bob, false⟩, ⟨0, ada, false⟩] := by decide +kernel
  have hmore : h.saves .detailed rivals [1] =
      [⟨1, ⟨3, ada.email, "hashed_battery staple"⟩, true⟩] := by decide +kernel
  have hturn : waitsFor (h.standing 1) = some saveLabel := by decide +kernel
  rcases overlapping_registrations .detailed rivals [2, 2, 0, 1, 0] with
    ⟨hreturned, _, hapart, _, hlast, hkept, _, hworks, hlooked⟩
  rw [hsaves] at hreturned hapart hlast
  have hbob : h.store.find? bob.email = some bob :=
    hlast [] ⟨2, bob, false⟩ [⟨0, ada, false⟩] rfl (by decide)
  have hbobKept := (hkept bob.email bob [1] hbob).2 (by rw [hmore]; decide)
  have hbobReturned := (hreturned 2 bob).2 ⟨⟨2, bob, false⟩, by simp, rfl, rfl⟩
  have hadaReturned := (hreturned 0 ada).2 ⟨⟨0, ada, false⟩, by simp, rfl, rfl⟩
  rcases hapart 2 0 bob ada hbobReturned hadaReturned (by decide) (by decide) with ⟨hemail, hid⟩
  rcases hworks rfl 1 hturn with ⟨user, huser, -⟩
  exact ⟨hsaves, hmore, hbobReturned, hadaReturned, hemail, hid, hbob, hbobKept, hturn,
    hlooked 1 hturn, ⟨user, huser⟩⟩

/-- Both lookups of one email come first, and then both saves.  Two registrations of that email end
in success, the account of the first one is replaced and no longer in the store, and the next user
gets the id of the second one again. -/
theorem account_replaced :
    let before := (opened .detailed rivals).run .detailed [0, 1, 0]
    let after := before.run .detailed [1, 2, 2]
    ¬ (∀ i j user user', after.Returned i user → after.Returned j user' →
        (rivals i).email = (rivals j).email → i = j) ∧
      ¬ (∀ email user, before.store.find? email = some user →
        after.store.find? email = some user) ∧
      ¬ (∀ i user, after.Returned i user → ∃ key, (key, user) ∈ after.store.accounts) ∧
      ¬ (∀ i j user user', after.Returned i user → after.Returned j user' → i ≠ j →
        user.id ≠ user'.id) := by
  intro before after
  let ada : User := ⟨1, "ada@example.org", "hashed_correct horse"⟩
  let rival : User := ⟨2, "ada@example.org", "hashed_battery staple"⟩
  let bob : User := ⟨2, "bob@example.org", "hashed_correct horse"⟩
  have hada : after.Returned 0 ada := by decide +kernel
  have hrival : after.Returned 1 rival := by decide +kernel
  have hbob : after.Returned 2 bob := by decide +kernel
  have hbefore : before.store.find? "ada@example.org" = some ada := by decide +kernel
  have hafter : after.store.accounts = [("ada@example.org", rival), ("bob@example.org", bob)] := by
    decide +kernel
  refine ⟨fun hone => ?_, fun hkept => ?_, fun hstored => ?_, fun hids => ?_⟩
  · cases hone 0 1 ada rival hada hrival rfl
  · have hfind := hkept _ ada hbefore
    unfold Store.find? at hfind
    rw [hafter] at hfind
    exact absurd hfind (by decide)
  · rcases hstored 0 ada hada with ⟨key, hmem⟩
    rw [hafter] at hmem
    simp [ada, rival, bob] at hmem
  · exact hids 1 2 rival bob hrival hbob (by decide) rfl

end Hall

end Deferred.Registration
