import Deferred.Proofs.Stages

/-!
# Validation — what the rules let through to the store

The sentence that reports a short password speaks of characters, and `Applicant.validate` counts
bytes of UTF-8.  The two agree on every password of eight characters or more, and on every one
whose characters take one byte each.  They differ on the others: a few characters that take many
bytes are let through.

* `Applicant.Acceptable` — what the rules ask for, as they are;
* `Applicant.AcceptableByCharacters` — what the sentences say;
* `Applicant.acceptable_iff_byCharacters_or_slips` — on which inputs these part;
* `validated_start` — the effect that a registration starts with, for every input and store;
* `multibyte_password_accepted` — a password of three characters that is let through.
-/

namespace Deferred.Registration

/-! ## Characters and bytes -/

/-- A character takes one byte at least. -/
theorem length_le_utf8ByteSize (s : String) : s.length ≤ s.utf8ByteSize := by
  induction s using String.push_induction with
  | empty => exact Nat.le_refl 0
  | push init c ih =>
    have hc : 0 < c.utf8Size := c.utf8Size_pos
    rw [String.length_push, String.utf8ByteSize_push]
    omega

/-- A character takes four bytes at most. -/
theorem utf8ByteSize_le_four_mul_length (s : String) : s.utf8ByteSize ≤ 4 * s.length := by
  induction s using String.push_induction with
  | empty => exact Nat.le_refl 0
  | push init c ih =>
    have hc : c.utf8Size ≤ 4 := c.utf8Size_le_four
    rw [String.length_push, String.utf8ByteSize_push]
    omega

/-! ## The rules -/

namespace Applicant

variable (input : Applicant)

/-- An email with an at sign, and a password of eight bytes. -/
def Acceptable : Prop :=
  '@' ∈ input.email.toList ∧ 8 ≤ input.password.utf8ByteSize

/-- An email with an at sign, and a password of eight characters. -/
def AcceptableByCharacters : Prop :=
  '@' ∈ input.email.toList ∧ 8 ≤ input.password.length

/-- A password that is too short by its characters, though not by its bytes, behind a proper
email. -/
def Slips : Prop :=
  '@' ∈ input.email.toList ∧ input.password.length < 8 ∧ 8 ≤ input.password.utf8ByteSize

variable {input}

theorem AcceptableByCharacters.acceptable (h : input.AcceptableByCharacters) :
    input.Acceptable :=
  ⟨h.1, Nat.le_trans h.2 (length_le_utf8ByteSize _)⟩

/-- Eight bytes are two characters or more. -/
theorem Acceptable.two_le_length (h : input.Acceptable) : 2 ≤ input.password.length := by
  have hbytes : 8 ≤ input.password.utf8ByteSize := h.2
  have hfour := utf8ByteSize_le_four_mul_length input.password
  omega

/-- The rules and the sentences part on the inputs that slip through, and on no others. -/
theorem acceptable_iff_byCharacters_or_slips :
    input.Acceptable ↔ input.AcceptableByCharacters ∨ input.Slips := by
  constructor
  · intro h
    by_cases hlength : 8 ≤ input.password.length
    · exact .inl ⟨h.1, hlength⟩
    · exact .inr ⟨h.1, Nat.lt_of_not_le hlength, h.2⟩
  · rintro (h | h)
    · exact h.acceptable
    · exact ⟨h.1, h.2.2⟩

theorem Slips.not_acceptableByCharacters (h : input.Slips) : ¬ input.AcceptableByCharacters :=
  fun h' => Nat.not_le_of_lt h.2.1 h'.2

theorem validate_eq_invalidEmail_iff :
    input.validate = .error .invalidEmail ↔ '@' ∉ input.email.toList := by
  unfold validate
  by_cases hat : '@' ∈ input.email.toList
  · by_cases hshort : input.password.utf8ByteSize < 8 <;> simp [hat, hshort]
  · simp [hat]

theorem validate_eq_passwordTooShort_iff :
    input.validate = .error .passwordTooShort ↔
      '@' ∈ input.email.toList ∧ input.password.utf8ByteSize < 8 := by
  unfold validate
  by_cases hat : '@' ∈ input.email.toList
  · by_cases hshort : input.password.utf8ByteSize < 8 <;> simp [hat, hshort]
  · simp [hat]

theorem validate_eq_ok_iff : input.validate = .ok input ↔ input.Acceptable := by
  unfold validate Acceptable
  by_cases hat : '@' ∈ input.email.toList
  · by_cases hshort : input.password.utf8ByteSize < 8
    · have hsize : ¬ 8 ≤ input.password.utf8ByteSize := Nat.not_le_of_lt hshort
      simp [hat, hshort, hsize]
    · have hsize : 8 ≤ input.password.utf8ByteSize := Nat.le_of_not_lt hshort
      simp [hat, hshort, hsize]
  · simp [hat]

end Applicant

/-! ## The effect that a registration starts with -/

/-- What a registration that has not been turned down waits for. -/
theorem label?_begun_eq_iff (policy : Policy) (input : Applicant) :
    (⟨begun policy input⟩ : Registering).label? = some findLabel ↔ input.validate = .ok input := by
  unfold begun
  rcases h : input.validate with problem | input'
  · exact ⟨nofun, nofun⟩
  · cases Applicant.validate_eq_ok h
    exact ⟨fun _ => rfl, fun _ => rfl⟩

/-- What a registration that has been turned down says. -/
theorem outcome?_begun_eq_error_iff (policy : Policy) (input : Applicant)
    (problem : RegistrationError) :
    (⟨begun policy input⟩ : Registering).outcome? = some (.error problem) ↔
      input.validate = .error problem := by
  unfold begun
  rcases h : input.validate with problem' | input'
  · have houtcome : (⟨turnedDown problem'⟩ : Registering).outcome? = some (.error problem') := rfl
    rw [houtcome]
    constructor
    · intro heq
      exact congrArg Except.error (Except.error.inj (Option.some.inj heq))
    · intro heq
      exact congrArg (some ∘ Except.error) (Except.error.inj heq)
  · exact ⟨nofun, nofun⟩

/-- A registration that has been turned down is over: nothing is invoked, however many operations
may be, and the store is as it was. -/
theorem runRecorded_turnedDown (policy : Policy) (problem : RegistrationError) (limit : Nat)
    (checked : Typed.Checked signature) :
    Typed.Effect.runRecorded (S := signature) (v := Kind.user) (e := Kind.problem)
        (meaning policy) limit ⟨turnedDown problem⟩ checked =
      (some (.error problem, ⟨#[], none⟩), checked) := by
  cases limit <;> rfl

/-- A registration that has not been turned down looks its email up, whatever comes of it. -/
theorem interpret_of_acceptable (policy : Policy) {input : Applicant} (h : input.Acceptable)
    (checked : Typed.Checked signature) :
    ∃ result t s, (start policy input >>= interpret policy) checked =
        (some (result, t), { checked with world := s }) ∧
      t.executed[0]? = some findLabel ∧ s.finds = checked.world.finds + 1 ∧
      result ≠ .error .passwordTooShort := by
  rcases interpret_start policy input checked with ⟨result, t, s, hending, hrun⟩
  refine ⟨result, t, s, hrun, ?_⟩
  have hvalid : input.validate = .ok input := Applicant.validate_eq_ok_iff.2 h
  -- Each ending but the first begins with the lookup.
  cases hending with
  | rejected invalid => simp [hvalid] at invalid
  | known valid found => exact ⟨rfl, rfl, nofun⟩
  | lost valid new fails => exact ⟨rfl, rfl, nofun⟩
  | saved valid new works => exact ⟨rfl, rfl, nofun⟩

/-- Where a registration leads from its input alone.  It waits for its lookup exactly if the input
is acceptable, and else it fails with the problem of the first rule that is broken; then no
operation is invoked at any limit, and the store and its counts stay as they are.  The sentence
about short passwords tells the inputs apart as the rules do, except for those that slip through:
their passwords have between two and seven characters, and their emails are looked up. -/
theorem validated_start (policy : Policy) (input : Applicant)
    (checked : Typed.Checked signature) :
    ∃ r : Registering, start policy input checked = (r, checked) ∧
      (r.label? = some findLabel ↔ input.Acceptable) ∧
      (r.outcome? = some (.error .invalidEmail) ↔ '@' ∉ input.email.toList) ∧
      (r.outcome? = some (.error .passwordTooShort) ↔
        '@' ∈ input.email.toList ∧ input.password.utf8ByteSize < 8) ∧
      RegistrationError.passwordTooShort.message policy.wording =
        "Password must be at least 8 characters." ∧
      (∀ problem, r.outcome? = some (.error problem) → ∀ limit (checked' : Typed.Checked signature),
        Typed.Effect.runRecorded (S := signature) (v := Kind.user) (e := Kind.problem)
          (meaning policy) limit r checked' = (some (.error problem, ⟨#[], none⟩), checked')) ∧
      ((r.label? = some findLabel ↔ input.AcceptableByCharacters) ↔ ¬ input.Slips) ∧
      (input.Slips → 2 ≤ input.password.length ∧
        ∃ result t s, (start policy input >>= interpret policy) checked =
            (some (result, t), { checked with world := s }) ∧
          t.executed[0]? = some findLabel ∧ s.finds = checked.world.finds + 1 ∧
          result ≠ .error .passwordTooShort) := by
  have hlabel : (⟨begun policy input⟩ : Registering).label? = some findLabel ↔ input.Acceptable :=
    (label?_begun_eq_iff policy input).trans Applicant.validate_eq_ok_iff
  refine ⟨⟨begun policy input⟩, ?start, hlabel, ?email, ?password, ?message, ?refused, ?same,
    ?slips⟩
  case start =>
    exact congrFun (start_eq policy input) checked
  case email =>
    exact (outcome?_begun_eq_error_iff policy input _).trans Applicant.validate_eq_invalidEmail_iff
  case password =>
    exact (outcome?_begun_eq_error_iff policy input _).trans
      Applicant.validate_eq_passwordTooShort_iff
  case message =>
    cases policy.wording <;> rfl
  case refused =>
    intro problem houtcome limit checked'
    have hbegun : begun policy input = turnedDown problem := by
      unfold begun
      rw [(outcome?_begun_eq_error_iff policy input problem).1 houtcome]
    rw [hbegun]
    exact runRecorded_turnedDown policy problem limit checked'
  case same =>
    -- An input that slips through satisfies the left side only, and no other input does.
    rw [hlabel, Applicant.acceptable_iff_byCharacters_or_slips]
    constructor
    · intro hsame hslips
      exact hslips.not_acceptableByCharacters (hsame.1 (.inr hslips))
    · intro hnone
      exact or_iff_left hnone
  case slips =>
    intro hslips
    have hacceptable : input.Acceptable :=
      Applicant.acceptable_iff_byCharacters_or_slips.2 (.inr hslips)
    exact ⟨hacceptable.two_le_length, interpret_of_acceptable policy hacceptable checked⟩

/-- Three characters of three bytes each are let through, with either wording, and the store is
asked for the email. -/
theorem multibyte_password_accepted :
    ¬ Applicant.AcceptableByCharacters ⟨"ada@example.org", "日本語"⟩ ∧
      (start .detailed ⟨"ada@example.org", "日本語"⟩ opened).1.label? = some findLabel ∧
      (start (.plain false) ⟨"ada@example.org", "日本語"⟩ opened).1.label? = some findLabel ∧
      ∃ result t s, (start .detailed ⟨"ada@example.org", "日本語"⟩ >>= interpret .detailed) opened =
          (some (result, t), { opened with world := s }) ∧
        t.executed[0]? = some findLabel ∧ s.finds = opened.world.finds + 1 ∧
        result ≠ .error .passwordTooShort := by
  have hslips : Applicant.Slips ⟨"ada@example.org", "日本語"⟩ := by
    unfold Applicant.Slips
    decide
  have hacceptable := Applicant.acceptable_iff_byCharacters_or_slips.2 (.inr hslips)
  refine ⟨hslips.not_acceptableByCharacters, by decide, by decide, ?_⟩
  exact interpret_of_acceptable .detailed hacceptable opened

end Deferred.Registration
