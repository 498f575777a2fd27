import Deferred.Proofs.Bifunctor
import Deferred.Proofs.ChainLaws

/-!
# Equality — what equality of effects is worth

Outcomes are compared by their values or errors, and commands by their labels alone.  Values and
errors may be compared more loosely than as data, so equal inputs need not be the same input.  A
link acts at once on an outcome and waits behind a command, and on either way it keeps equal
effects equal if its functions do.

Equal inputs may leave different traces in the world.  Which worlds count as alike is therefore a
relation of its own: nothing is asked of it, but functions have to stay within it.

* `Effect.Equal` — equality of effects, one rule for each kind of effect;
* `Action.Relates` — computations from worlds that are alike to worlds that are alike;
* `Action.Congruent`, `Link.Congruent` — functions, and links of functions, that map equal inputs
  to equal outputs;
* `Effect.Equal.links`, `Effect.Equal.runAll` — links and pipelines keep equal effects equal;
* `Effect.equality_respected` — all of this, and the converse for commands.
-/

namespace Deferred

variable {S : Signature}

/-! ## Worlds that are alike -/

/-- From worlds that are alike both computations lead to worlds that are alike, and their values
are related. -/
def Action.Relates {α β : Type} (R : S.World → S.World → Prop) (P : α → β → Prop)
    (x : Action S α) (y : Action S β) : Prop :=
  ∀ w v, R w v → P (x w).1 (y v).1 ∧ R (x w).2 (y v).2

/-- A function that maps equal inputs to equal outputs, in worlds that are alike. -/
def Action.Congruent {α β : Type} [BEq α] [BEq β] (R : S.World → S.World → Prop)
    (f : α → Action S β) : Prop :=
  ∀ a b, a == b → Action.Relates R (fun x y => x == y) (f a) (f b)

namespace Action.Relates

variable {α β γ δ : Type} {R : S.World → S.World → Prop} {P : α → β → Prop} {Q : γ → δ → Prop}

theorem pure {a : α} {b : β} (h : P a b) :
    Action.Relates R P (Pure.pure a) (Pure.pure b) :=
  fun _ _ hworlds => ⟨h, hworlds⟩

theorem bind {x : Action S α} {y : Action S β} {f : α → Action S γ} {g : β → Action S δ}
    (hx : Action.Relates R P x y) (hf : ∀ a b, P a b → Action.Relates R Q (f a) (g b)) :
    Action.Relates R Q (x >>= f) (y >>= g) := by
  intro w v hworlds
  have hfirst := hx w v hworlds
  exact hf _ _ hfirst.1 _ _ hfirst.2

theorem mono {P' : α → β → Prop} {x : Action S α} {y : Action S β}
    (hx : Action.Relates R P x y) (h : ∀ a b, P a b → P' a b) : Action.Relates R P' x y := by
  intro w v hworlds
  have hfirst := hx w v hworlds
  exact ⟨h _ _ hfirst.1, hfirst.2⟩

end Action.Relates

/-! ## Equal effects -/

section

variable [BEq S.Value] [BEq S.Error]

namespace Effect

/-- Two effects of one kind with equal values, equal errors, or the same label. -/
inductive Equal : Effect S → Effect S → Prop where
  | success {a b : S.Value} (h : a == b) : Equal (.success a) (.success b)
  | failure {a b : S.Error} (h : a == b) : Equal (.failure a) (.failure b)
  | command {c d : Command S} (h : c.label = d.label) : Equal (.command c) (.command d)

theorem beq_iff_equal : ∀ {a b : Effect S}, a == b ↔ a.Equal b
  | .success _, .success _ => ⟨.success, fun | .success h => h⟩
  | .failure _, .failure _ => ⟨.failure, fun | .failure h => h⟩
  | .command c, .command d =>
    have hlabel : c.label == d.label ↔ c.label = d.label := beq_iff_eq
    ⟨fun h => .command (hlabel.1 h), fun | .command h => hlabel.2 h⟩
  | .success _, .failure _ | .success _, .command _ | .failure _, .success _
  | .failure _, .command _ | .command _, .success _ | .command _, .failure _ => ⟨nofun, nofun⟩

namespace Equal

variable {a b c : Effect S}

theorem refl [ReflBEq S.Value] [ReflBEq S.Error] (e : Effect S) : e.Equal e := by
  cases e with
  | success value =>
    exact .success BEq.rfl
  | failure error =>
    exact .failure BEq.rfl
  | command c =>
    exact .command rfl

theorem symm [PartialEquivBEq S.Value] [PartialEquivBEq S.Error] (h : a.Equal b) :
    b.Equal a := by
  cases h with
  | success h =>
    exact .success (BEq.symm h)
  | failure h =>
    exact .failure (BEq.symm h)
  | command h =>
    exact .command h.symm

theorem trans [PartialEquivBEq S.Value] [PartialEquivBEq S.Error] (h : a.Equal b)
    (h' : b.Equal c) : a.Equal c := by
  cases h with
  | success h =>
    cases h' with
    | success h' =>
      exact .success (BEq.trans h h')
  | failure h =>
    cases h' with
    | failure h' =>
      exact .failure (BEq.trans h h')
  | command h =>
    cases h' with
    | command h' =>
      exact .command (h.trans h')

end Equal

end Effect

/-! ## Functions and links -/

/-- The function of a step maps equal values to equal effects. -/
abbrev Step.Congruent (M : Meaning S) (R : S.World → S.World → Prop) (step : Step S) : Prop :=
  Action.Congruent R (step.run M)

/-- A link whose functions map equal inputs to equal outputs. -/
inductive Link.Congruent (M : Meaning S) (R : S.World → S.World → Prop) : Link S → Prop where
  | andThen {step : Step S} (h : step.Congruent M R) : Congruent M R (.onSuccess step)
  | map {f : S.Value → Action S S.Value} (h : Action.Congruent R f) :
      Congruent M R (.onSuccess (.map f))
  | ensure {holds : S.Value → Action S Bool} {error : Action S S.Error}
      (hholds : Action.Congruent R holds)
      (herror : Action.Relates R (fun x y => x == y) error error) :
      Congruent M R (.onSuccess (.ensure holds error))
  | mapErr {f : S.Error → Action S S.Error} (h : Action.Congruent R f) :
      Congruent M R (.onError f)

variable {M : Meaning S} {R : S.World → S.World → Prop}

namespace Step.Congruent

theorem run {step : Step S} (h : step.Congruent M R) {a b : S.Value} (hab : a == b) :
    Action.Relates R Effect.Equal (step.run M a) (step.run M b) :=
  (h a b hab).mono fun _ _ => Effect.beq_iff_equal.1

theorem of_run {step : Step S}
    (h : ∀ a b, a == b → Action.Relates R Effect.Equal (step.run M a) (step.run M b)) :
    step.Congruent M R :=
  fun a b hab => (h a b hab).mono fun _ _ => Effect.beq_iff_equal.2

theorem map {f : S.Value → Action S S.Value} (h : Action.Congruent R f) :
    (Step.map f).Congruent M R := by
  refine .of_run fun a b hab => ?_
  simp only [Step.run]
  exact (h a b hab).bind fun _ _ hvalue => .pure (.success hvalue)

theorem ensure {holds : S.Value → Action S Bool} {error : Action S S.Error}
    (hholds : Action.Congruent R holds)
    (herror : Action.Relates R (fun x y => x == y) error error) :
    (Step.ensure holds error).Congruent M R := by
  refine .of_run fun a b hab => ?_
  simp only [Step.run]
  refine (hholds a b hab).bind fun answer answer' hanswer => ?_
  -- Both predicates give the same answer, and the value that is kept is the input itself.
  have hsame : answer = answer' := eq_of_beq hanswer
  subst hsame
  cases answer with
  | true =>
    exact .pure (.success hab)
  | false =>
    exact herror.bind fun _ _ herror => .pure (.failure herror)

end Step.Congruent

/-! ## Linking equal effects -/

namespace Effect.Equal

variable {a b : Effect S}

theorem andThen (hab : a.Equal b) {step : Step S} (h : step.Congruent M R) :
    Action.Relates R Equal (a.andThen M step) (b.andThen M step) := by
  -- Only for two successes is the step called; behind two commands nothing is asked of it.
  cases hab with
  | success hvalue =>
    exact h.run hvalue
  | failure herror =>
    exact .pure (.failure herror)
  | command hlabel =>
    exact .pure (.command hlabel)

theorem mapErr (hab : a.Equal b) {f : S.Error → Action S S.Error} (h : Action.Congruent R f) :
    Action.Relates R Equal (a.mapErr f) (b.mapErr f) := by
  cases hab with
  | success hvalue =>
    exact .pure (.success hvalue)
  | failure herror =>
    exact (h _ _ herror).bind fun _ _ herror' => .pure (.failure herror')
  | command hlabel =>
    exact .pure (.command hlabel)

theorem link (hab : a.Equal b) {l : Link S} (h : l.Congruent M R) :
    Action.Relates R Equal (a.link M l) (b.link M l) := by
  cases h with
  | andThen h =>
    exact hab.andThen h
  | map h =>
    exact hab.andThen (.map h)
  | ensure hholds herror =>
    exact hab.andThen (.ensure hholds herror)
  | mapErr h =>
    exact hab.mapErr h

/-- Links keep equal effects equal, also where the first of them turn outcomes into commands and
the others wait behind these. -/
theorem links {links : List (Link S)} (h : ∀ l ∈ links, l.Congruent M R) (hab : a.Equal b) :
    Action.Relates R Equal (links.foldlM (Effect.link M) a) (links.foldlM (Effect.link M) b) := by
  -- After each link the effects are equal again, though maybe of another kind than before.
  induction links generalizing a b with
  | nil =>
    exact .pure hab
  | cons l rest ih =>
    have hfirst := h l List.mem_cons_self
    have hrest : ∀ l ∈ rest, l.Congruent M R := fun l hl => h l (List.mem_cons_of_mem _ hl)
    exact (hab.link hfirst).bind fun _ _ hnext => ih hrest hnext

/-- So do the steps of a pipeline, which are links. -/
theorem runAll {steps : List (Step S)} (h : ∀ step ∈ steps, step.Congruent M R)
    (hab : a.Equal b) :
    Action.Relates R Equal (Step.runAll M steps a) (Step.runAll M steps b) := by
  have hlinks : ∀ l ∈ steps.map Link.onSuccess, l.Congruent M R := by
    intro l hl
    rcases List.mem_map.1 hl with ⟨step, hstep, rfl⟩
    exact .andThen (h step hstep)
  have hfold := links hlinks hab
  simpa only [Effect.foldlM_link, ← Step.runAll_eq_pass] using hfold

end Effect.Equal

end

/-! ## All together -/

/-- Links wait behind a command, in their order. -/
theorem Effect.foldlM_link_command (M : Meaning S) (links : List (Link S)) (c : Command S) :
    links.foldlM (Effect.link M) (.command c) =
      pure (.command (c.inherit (.ofList links))) := by
  rw [Effect.foldlM_link, Effect.pass_command]

namespace Effect

/-- Equality of effects is an equivalence, and everything that is chained respects it.  Let values
and errors each be compared by an equivalence.

* Every effect equals itself, and equality of effects is symmetric and transitive.
* Let `R` say which worlds are alike.  Links whose functions map equal inputs to equal outputs make
  equal effects of equal effects, whatever their number and order.
* A pipeline of steps that map equal values to equal effects makes equal effects of equal starts.
* Behind two commands nothing is asked of the links: none of them is called, both effects stay
  commands with their labels, and they are equal with the links exactly if they were without. -/
theorem equality_respected [BEq S.Value] [EquivBEq S.Value] [BEq S.Error] [EquivBEq S.Error]
    (M : Meaning S) :
    (∀ e : Effect S, e == e) ∧
    (∀ a b : Effect S, a == b → b == a) ∧
    (∀ a b c : Effect S, a == b → b == c → a == c) ∧
    (∀ (R : S.World → S.World → Prop) (links : List (Link S)),
      (∀ l ∈ links, l.Congruent M R) →
      Action.Congruent R fun e => links.foldlM (Effect.link M) e) ∧
    (∀ (R : S.World → S.World → Prop) (p : Pipeline S),
      (∀ step ∈ p.toList, step.Congruent M R) → Action.Congruent R (p.run M)) ∧
    (∀ (links : List (Link S)) (c d : Command S), ∃ c' d' : Command S,
      links.foldlM (Effect.link M) (.command c) = pure (.command c') ∧ c'.label = c.label ∧
      links.foldlM (Effect.link M) (.command d) = pure (.command d') ∧ d'.label = d.label ∧
      (Effect.command c' == .command d') = (Effect.command c == .command d)) := by
  refine ⟨?_, ?_, ?_, ?_, ?_, ?_⟩
  · intro e
    exact beq_iff_equal.2 (.refl e)
  · intro a b hab
    exact beq_iff_equal.2 (beq_iff_equal.1 hab).symm
  · intro a b c hab hbc
    exact beq_iff_equal.2 ((beq_iff_equal.1 hab).trans (beq_iff_equal.1 hbc))
  · intro R links h a b hab
    exact (Equal.links h (beq_iff_equal.1 hab)).mono fun _ _ => beq_iff_equal.2
  · intro R p h a b hab
    have hrun := Equal.runAll h (.success hab)
    exact hrun.mono fun _ _ => beq_iff_equal.2
  · intro links c d
    exact ⟨c.inherit (.ofList links), d.inherit (.ofList links),
      foldlM_link_command M links c, rfl, foldlM_link_command M links d, rfl, rfl⟩

end Effect

/-! ## Hours on a clock face -/

namespace Clock

/-- An hour, which is shown like the one twelve hours later. -/
structure Hour where
  count : Nat

instance : BEq Hour := ⟨fun a b => a.count % 12 == b.count % 12⟩

theorem beq_iff {a b : Hour} : a == b ↔ a.count % 12 = b.count % 12 :=
  beq_iff_eq (a := a.count % 12) (b := b.count % 12)

instance : EquivBEq Hour where
  rfl := beq_iff.2 rfl
  symm h := beq_iff.2 (beq_iff.1 h).symm
  trans h h' := beq_iff.2 ((beq_iff.1 h).trans (beq_iff.1 h'))

/-- Hours as values, errors and results, in a world in which hours are written down. -/
abbrev signature : Signature where
  World := List Nat
  Value := Hour
  Error := Hour
  ResultType := Unit
  Result _ := Hour
  typeName _ := "hour"
  Fn := Label
  Cont _ := Unit
  TryCont _ := Empty

/-- A step asks for an hour, unless it is twelve o'clock. -/
def meaning : Meaning signature where
  call label (hour : Hour) :=
    if hour.count % 12 = 0 then return .failure hour
    else return .deferred (S := signature) label (r := ()) (return .ok hour) ()
  resume _ (hour : Hour) := return .success hour
  tryResume := nofun

/-- The hour that comes next.  The one before is written down. -/
def later (hour : Hour) : Action signature Hour :=
  fun written => (⟨hour.count + 1⟩, written ++ [hour.count])

/-- The same was written down, as a clock face shows it. -/
def alike (written written' : List Nat) : Prop :=
  written.map (· % 12) = written'.map (· % 12)

theorem congruent_later : Action.Congruent alike later := by
  intro a b hab written written' hwritten
  have hcount : a.count % 12 = b.count % 12 := beq_iff.1 hab
  have hnext : (a.count + 1) % 12 = (b.count + 1) % 12 := by omega
  have hlines : alike (written ++ [a.count]) (written' ++ [b.count]) := by
    simpa [alike, hcount] using hwritten
  exact ⟨beq_iff.2 hnext, hlines⟩

theorem congruent_call (label : Label) :
    (Step.call label : Step signature).Congruent meaning alike := by
  refine .of_run fun a b hab => ?_
  have hcount : a.count % 12 = b.count % 12 := beq_iff.1 hab
  -- A clock shows twelve for both hours or for neither, so both fail or both ask.
  by_cases htwelve : b.count % 12 = 0
  · simp only [Step.run, meaning, hcount, htwelve, if_true]
    exact .pure (.failure hab)
  · simp only [Step.run, meaning, hcount, htwelve, if_false]
    exact .pure (.command rfl)

/-- Two hours later another hour is asked for, and errors are an hour late. -/
def links : List (Link signature) :=
  [.onSuccess (.map later), .onSuccess (.map later), .onSuccess (.call ⟨"ask"⟩), .onError later]

theorem congruent_links : ∀ l ∈ links, l.Congruent meaning alike := by
  intro l hl
  simp only [links, List.mem_cons, List.not_mem_nil, or_false] at hl
  rcases hl with rfl | rfl | rfl | rfl
  · exact .map congruent_later
  · exact .map congruent_later
  · exact .andThen (congruent_call _)
  · exact .mapErr congruent_later

end Clock

open Clock in
/-- One o'clock and thirteen hours: both become commands halfway.  Ten o'clock and twenty-two hours:
both fail, with errors that are an hour late. -/
theorem Effect.equality_respected_on_clock :
    let linked (count : Nat) : Effect signature × List Nat :=
      links.foldlM (Effect.link meaning) (.success (⟨count⟩ : Hour)) []
    ((linked 1).1 == (linked 13).1) = true ∧ (linked 1).1.label? = some ⟨"ask"⟩ ∧
      (linked 1).2 = [1, 2] ∧ (linked 13).2 = [13, 14] ∧
    ((linked 10).1 == (linked 22).1) = true ∧ (linked 10).1.failure? = some (⟨13⟩ : Hour) ∧
      (linked 22).1.failure? = some (⟨25⟩ : Hour) := by
  have hrespected := (Effect.equality_respected meaning).2.2.2.1 alike links congruent_links
  have hone : (Effect.success (⟨1⟩ : Hour) : Effect signature) == .success (⟨13⟩ : Hour) := rfl
  have hten : (Effect.success (⟨10⟩ : Hour) : Effect signature) == .success (⟨22⟩ : Hour) := rfl
  exact ⟨(hrespected _ _ hone [] [] rfl).1, rfl, rfl, rfl, (hrespected _ _ hten [] [] rfl).1,
    rfl, rfl⟩

end Deferred
