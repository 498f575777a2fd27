import Deferred.Proofs.RunLaws
import Deferred.Proofs.View

/-!
# Rehearsal — a flow that is walked by hand goes the way of its runs

In a test a flow is walked by hand: every command is resumed with the result that its operation
would have given, and no operation is invoked.  The interpreter gets to the same continuations by
another way, through the operation.  Where functions keep to a view of the world and operations
have fixed answers, both ways agree.

* `Command.KeepsTo.rehearse` — one command, by hand and by the interpreter;
* `Rehearsal` — a whole walk by hand;
* `Interpreter.Run.rehearsal`, `Interpreter.Run.of_rehearsal` — a run gives a rehearsal, and a
  rehearsal a run;
* `Interpreter.resume_predicts_run` — both for the runs that are recorded.
-/

namespace Deferred

variable {S : Signature} {V : Type} {view : S.World → V}

/-! ## One command -/

namespace Command

variable {M : Meaning S} {c : Command S} {result : S.Result c.request.result}

/-- The fault that a run records when the continuation of a command returns an error on a
result. -/
def faultOn (M : Meaning S) (c : Command S) (result : S.Result c.request.result)
    (w : S.World) : Option Fault :=
  match (c.request.continuation.apply M result w).1 with
  | .ok _ => none
  | .error _ => some ⟨c.label, .continuation⟩

section

variable {w w₁ w₂ : S.World}

theorem resume_of_ok {next : Effect S}
    (happly : c.request.continuation.apply M result w₁ = (.ok next, w₂)) :
    c.resume M c.request.result result w₁ =
      (.ok (next.pass M c.queue w₂).1, (next.pass M c.queue w₂).2) := by
  simp [resume, happly]

theorem resume_of_error {error : S.Error}
    (happly : c.request.continuation.apply M result w₁ = (.error error, w₂)) :
    c.resume M c.request.result result w₁ =
      (.ok (.failure (passError error c.queue w₂).1), (passError error c.queue w₂).2) := by
  simp [resume, happly]

theorem advance_of_ok {next : Effect S} (hanswer : c.request.operation w = (.ok result, w₁))
    (happly : c.request.continuation.apply M result w₁ = (.ok next, w₂)) :
    c.advance M w = (.next (next.pass M c.queue w₂).1, (next.pass M c.queue w₂).2) := by
  simp [advance, hanswer, happly]

theorem advance_of_error {error : S.Error} (hanswer : c.request.operation w = (.ok result, w₁))
    (happly : c.request.continuation.apply M result w₁ = (.error error, w₂)) :
    c.advance M w =
      (.fault .continuation (passError error c.queue w₂).1, (passError error c.queue w₂).2) := by
  simp [advance, hanswer, happly]

theorem advance_of_refusal {error : S.Error}
    (hanswer : c.request.operation w = (.error error, w₁)) :
    c.advance M w =
      (.fault .operation (passError error c.queue w₁).1, (passError error c.queue w₁).2) := by
  simp [advance, hanswer]

end

/-- What a step of the interpreter leads to, when a result that is supplied by hand leads to `e`:
the same effect, unless the continuation returned an error.  That is a failure by hand, and a fault
with the same error for the interpreter. -/
inductive Foretold (M : Meaning S) (c : Command S) (result : S.Result c.request.result)
    (v : S.World) : Effect S → Advance S → Prop where
  | next {e : Effect S} (hfault : c.faultOn M result v = none) :
      Foretold M c result v e (.next e)
  | fault {error : S.Error} {v₂ : S.World}
      (happly : c.request.continuation.apply M result v = (.error error, v₂))
      (hfault : c.faultOn M result v = some ⟨c.label, .continuation⟩) :
      Foretold M c result v (.failure (passError error c.queue v₂).1)
        (.fault .continuation (passError error c.queue v₂).1)

/-- An operation that keeps to the view gives in all worlds the answer that it gives in one. -/
theorem KeepsTo.fixed (hc : c.KeepsTo view) {w : S.World}
    (hanswer : (c.request.operation w).1 = .ok result) :
    c.request.operation.Fixed view (.ok result) := by
  rcases hc.operation with ⟨answer, hfixed⟩
  have hsame : answer = .ok result := (hfixed w).1.symm.trans hanswer
  rwa [hsame] at hfixed

/-- One command, by hand in one world and by the interpreter in another one with the same view. -/
theorem KeepsTo.rehearse (hM : M.KeepsTo view) (hc : c.KeepsTo view)
    (hanswer : c.request.operation.Fixed view (.ok result)) {w v : S.World}
    (hview : view w = view v) :
    ∃ e v₁ a w₁, c.resume M c.request.result result v = (.ok e, v₁) ∧
      c.advance M w = (a, w₁) ∧ Foretold M c result v e a ∧
      e.KeepsTo view ∧ view w₁ = view v₁ := by
  rcases hoperation : c.request.operation w with ⟨answer, w₀⟩
  have hfixed := hanswer w
  rw [hoperation] at hfixed
  rcases hfixed with ⟨rfl, hunseen⟩
  -- The operation leaves the view as it is, so the continuation is called alike on both ways.
  have hcalled := Continuation.apply_keepsTo hM c.request.continuation result w₀ v
    (hunseen.trans hview)
  rcases hw : c.request.continuation.apply M result w₀ with ⟨outcome, w₂⟩
  rcases hv : c.request.continuation.apply M result v with ⟨outcome', v₂⟩
  rw [hw, hv] at hcalled
  rcases hcalled with ⟨rfl, hleft, hkeeps⟩
  cases outcome with
  | ok next =>
    rcases hc.pass hM (hkeeps next rfl) w₂ v₂ hleft with ⟨hvalue, hview', hnext⟩
    refine ⟨_, _, _, _, resume_of_ok hv, advance_of_ok hoperation hw, ?_, hvalue ▸ hnext, hview'⟩
    rw [hvalue]
    exact .next (by simp [faultOn, hv])
  | error error =>
    rcases hc.passError error w₂ v₂ hleft with ⟨hvalue, hview', -⟩
    refine ⟨_, _, _, _, resume_of_error hv, advance_of_error hoperation hw, ?_, .failure _, hview'⟩
    rw [hvalue]
    exact .fault hv (by simp [faultOn, hv])

/-- The same for a command that the interpreter has moved on, unless its operation has failed. -/
theorem KeepsTo.rehearse_of_advance (hM : M.KeepsTo view) (hc : c.KeepsTo view) {w w₁ v : S.World}
    {a : Advance S} (hadvance : c.advance M w = (a, w₁))
    (ha : ∀ error, a ≠ .fault .operation error) (hview : view w = view v) :
    ∃ result e v₁, c.request.operation.Fixed view (.ok result) ∧
      c.resume M c.request.result result v = (.ok e, v₁) ∧ Foretold M c result v e a ∧
      e.KeepsTo view ∧ view w₁ = view v₁ := by
  rcases hc.operation with ⟨answer, hfixed⟩
  cases answer with
  | error error =>
    have hrefusal := advance_of_refusal (M := M) (Prod.ext (hfixed w).1 rfl)
    have hfault := congrArg Prod.fst (hadvance.symm.trans hrefusal)
    exact absurd hfault (ha _)
  | ok result =>
    rcases hc.rehearse hM hfixed hview with
      ⟨e, v₁, a', w₁', hresume, hadvance', hforetold, he, hleft⟩
    cases hadvance.symm.trans hadvance'
    exact ⟨result, e, v₁, hfixed, hresume, hforetold, he, hleft⟩

end Command

/-! ## Whole walks -/

/-- A walk by hand from an effect to an outcome: every command is resumed with the result that its
operation answers in all worlds.  It notes the labels of the commands it gets to. -/
inductive Rehearsal (M : Meaning S) :
    Effect S → S.World → List Label → Except S.Error S.Value → S.World → Prop where
  | success (value : S.Value) (v : S.World) : Rehearsal M (.success value) v [] (.ok value) v
  | failure (error : S.Error) (v : S.World) : Rehearsal M (.failure error) v [] (.error error) v
  | resumed {c : Command S} {e : Effect S} {v v₁ v₂ : S.World} {labels : List Label}
      {r : Except S.Error S.Value} (result : S.Result c.request.result)
      (answers : ∀ w, (c.request.operation w).1 = .ok result)
      (resumes : c.resume M c.request.result result v = (.ok e, v₁))
      (rest : Rehearsal M e v₁ labels r v₂) :
      Rehearsal M (.command c) v (c.label :: labels) r v₂

namespace Trace

/-- No operation has failed in a run with this record. -/
def OperationsSucceeded (t : Trace) : Prop :=
  ∀ f, t.fault = some f → f.phase = .continuation

theorem executed_invoked_append (label : Label) (t : Trace) :
    (invoked label ++ t).executed.toList = label :: t.executed.toList := by
  show (#[label] ++ t.executed).toList = _
  simp

theorem OperationsSucceeded.of_append {t u : Trace} (h : (t ++ u).OperationsSucceeded) :
    u.OperationsSucceeded := by
  intro f hf
  refine h f ?_
  rw [fault_append, hf]
  rfl

theorem OperationsSucceeded.invoked_append {label : Label} {t : Trace}
    (h : t.OperationsSucceeded) : (invoked label ++ t).OperationsSucceeded := by
  intro f hf
  rw [fault_append, fault_invoked] at hf
  cases ht : t.fault with
  | none =>
    rw [ht] at hf
    cases hf
  | some f' =>
    rw [ht] at hf
    cases hf
    exact h f ht

end Trace

namespace Interpreter

variable {I : Interpreter S} {span : Option String}

section

variable (hM : I.meaning.KeepsTo view) (hI : I.ReportsUnseen view)

include hM hI

/-- A run in which all operations succeed is rehearsed by hand. -/
theorem Run.rehearsal {e : Effect S} {w w' : S.World} {r : Except S.Error S.Value} {t : Trace}
    (h : I.Run span e w r t w') (he : e.KeepsTo view) (ht : t.OperationsSucceeded)
    {v : S.World} (hview : view w = view v) :
    ∃ v', Rehearsal I.meaning e v t.executed.toList r v' ∧ view w' = view v' := by
  induction h generalizing v with
  | success value w =>
    exact ⟨v, .success value v, hview⟩
  | failure error w =>
    exact ⟨v, .failure error v, hview⟩
  | @next c e w w₁ w₂ r t advanced _ ih =>
    cases he with
    | command hc =>
      have hannounced : view (I.announce span c w) = view v := (hI.announce span c w).trans hview
      rcases hc.rehearse_of_advance hM advanced nofun hannounced with
        ⟨result, e', v₁, hfixed, hresume, hforetold, hkeeps, hleft⟩
      cases hforetold with
      | next _ =>
        rcases ih hkeeps ht.of_append hleft with ⟨v', hrest, hend⟩
        rw [Trace.executed_invoked_append]
        exact ⟨v', .resumed result (fun w => (hfixed w).1) hresume hrest, hend⟩
  | @fault c phase error w w₁ advanced =>
    cases he with
    | command hc =>
      have hannounced : view (I.announce span c w) = view v := (hI.announce span c w).trans hview
      have hphase : phase = .continuation := ht _ rfl
      subst hphase
      rcases hc.rehearse_of_advance hM advanced nofun hannounced with
        ⟨result, e', v₁, hfixed, hresume, hforetold, hkeeps, hleft⟩
      cases hforetold with
      | fault _ _ =>
        -- By hand there is a failure with the same error, and nothing is left to resume.
        exact ⟨v₁, .resumed result (fun w => (hfixed w).1) hresume (.failure _ v₁), hleft⟩

/-- A rehearsal by hand comes true in a run. -/
theorem Run.of_rehearsal {e : Effect S} {v v' : S.World} {labels : List Label}
    {r : Except S.Error S.Value} (h : Rehearsal I.meaning e v labels r v') (he : e.KeepsTo view)
    {w : S.World} (hview : view w = view v) :
    ∃ t w', I.Run span e w r t w' ∧ view w' = view v' ∧ t.executed.toList = labels ∧
      t.OperationsSucceeded := by
  induction h generalizing w with
  | success value v =>
    exact ⟨.empty, w, .success value w, hview, rfl, nofun⟩
  | failure error v =>
    exact ⟨.empty, w, .failure error w, hview, rfl, nofun⟩
  | @resumed c e v v₁ v₂ labels r result answers resumes rest ih =>
    cases he with
    | command hc =>
      have hannounced : view (I.announce span c w) = view v := (hI.announce span c w).trans hview
      rcases hc.rehearse hM (hc.fixed (answers w)) hannounced with
        ⟨e', v₁', a, w₁, hresume, hadvance, hforetold, hkeeps, hleft⟩
      cases resumes.symm.trans hresume
      cases hforetold with
      | next _ =>
        rcases ih hkeeps hleft with ⟨t, w', hrun, hend, hlabels, ht⟩
        refine ⟨_, w', .next hadvance hrun, hend, ?_, ht.invoked_append⟩
        rw [Trace.executed_invoked_append, hlabels]
      | fault _ _ =>
        cases rest
        refine ⟨_, w₁, .fault hadvance, hleft, rfl, ?_⟩
        intro f hf
        cases hf
        rfl

/-- A run of a command is a run of what comes of the operation's result by hand, and the command
itself in front of it. -/
theorem Run.command_iff {c : Command S} {result : S.Result c.request.result} {e : Effect S}
    {a : Advance S} {w w₁ v v₁ : S.World}
    (hadvance : c.advance I.meaning (I.announce span c w) = (a, w₁))
    (hforetold : Command.Foretold I.meaning c result v e a) (he : e.KeepsTo view)
    (hleft : view w₁ = view v₁) (r : Except S.Error S.Value) (t : Trace) (s : V) :
    (∃ w', I.Run span (.command c) w r t w' ∧ view w' = s) ↔
      ∃ t₁, (∃ v', I.Run span e v₁ r t₁ v' ∧ view v' = s) ∧
        t.executed = #[c.label] ++ t₁.executed ∧
        t.fault = (c.faultOn I.meaning result v <|> t₁.fault) := by
  cases hforetold with
  | next hfault =>
    have hrecord : ∀ t₁, t = .invoked c.label ++ t₁ ↔
        t.executed = #[c.label] ++ t₁.executed ∧
        t.fault = (c.faultOn I.meaning result v <|> t₁.fault) := by
      intro t₁
      rw [hfault]
      exact Trace.eq_append_iff rfl
    constructor
    · intro h
      rcases h with ⟨w', hrun, hs⟩
      cases hrun with
      | next advanced rest =>
        cases hadvance.symm.trans advanced
        rcases rest.transfer hM hI he hleft with ⟨v', hrest, hend⟩
        exact ⟨_, ⟨v', hrest, hend.symm.trans hs⟩, (hrecord _).1 rfl⟩
      | fault advanced =>
        cases hadvance.symm.trans advanced
    · intro h
      rcases h with ⟨t₁, ⟨v', hrest, hs⟩, ht⟩
      rcases hrest.transfer hM hI he hleft.symm with ⟨w', hrun, hend⟩
      rw [(hrecord t₁).2 ht]
      exact ⟨w', .next hadvance hrun, hend.symm.trans hs⟩
  | @fault error v₂ happly hfault =>
    rw [hfault]
    constructor
    · intro h
      rcases h with ⟨w', hrun, hs⟩
      cases hrun with
      | next advanced rest =>
        cases hadvance.symm.trans advanced
      | fault advanced =>
        cases hadvance.symm.trans advanced
        exact ⟨.empty, ⟨v₁, .failure _ v₁, hleft.symm.trans hs⟩, rfl, rfl⟩
    · intro h
      rcases h with ⟨t₁, ⟨v', hrest, hs⟩, hexecuted, hphase⟩
      cases hrest
      have ht : t = (Trace.invoked c.label).faultedAt ⟨c.label, .continuation⟩ := by
        rcases t with ⟨executed, fault⟩
        cases hexecuted
        cases hphase
        rfl
      rw [ht]
      exact ⟨w₁, .fault hadvance, hleft.trans hs⟩

omit hM in
/-- Where reports are made out of sight, a run that is recorded is seen like its derivation. -/
theorem ends_view_iff {e : Effect S} {w : S.World} {r : Except S.Error S.Value} {t : Trace}
    {s : V} :
    (∃ w', I.Ends (pure e) w r t w' ∧ view w' = s) ↔
      ∃ w', I.Run none e w r t w' ∧ view w' = s := by
  constructor
  · intro h
    rcases h with ⟨w', hends, hs⟩
    rcases ends_iff_run.1 hends with ⟨w₁, hrun, hw₁⟩
    refine ⟨w₁, hrun, ?_⟩
    rw [← hs, ← hw₁, hI.reportFault]
  · intro h
    rcases h with ⟨w₁, hrun, hs⟩
    refine ⟨_, ends_iff_run.2 ⟨w₁, hrun, rfl⟩, ?_⟩
    rw [hI.reportFault, hs]

end

/-- Walking a flow by hand predicts its runs, where functions keep to a view of the world, such as
the list of their calls, and operations have fixed answers and are made out of sight of it.

Let the operation of a command answer a result in some world, and let that result be supplied by
hand in any world with the same view.  It leads to an effect whose runs return what the runs of the
command return, and leave the same view behind.  The record of a run of the command has the
command's label in front of the labels of that effect's run; its fault is that of the effect's run,
unless the command's own continuation returned an error.  Then the fault is the command's, in its
continuation, and the effect is the failure with that error, transformed by the links behind.

Hence a run in which all operations succeed, of any length, is a walk by hand with the results of
the operations: along the same labels, to the same outcome, and to the same view. -/
theorem resume_predicts_run (I : Interpreter S) (view : S.World → V)
    (hM : I.meaning.KeepsTo view) (hI : I.ReportsUnseen view) :
    (∀ (c : Command S) (result : S.Result c.request.result) (w v : S.World),
      c.KeepsTo view → (c.request.operation w).1 = .ok result → view w = view v →
      ∃ e v₁, c.resume I.meaning c.request.result result v = (.ok e, v₁) ∧
        (∀ r, (∃ w', I.Returns (.command c) w r w') ↔ ∃ v', I.Returns e v₁ r v') ∧
        (∀ r t s, (∃ w', I.Ends (pure (.command c)) w r t w' ∧ view w' = s) ↔
          ∃ t₁, (∃ v', I.Ends (pure e) v₁ r t₁ v' ∧ view v' = s) ∧
            t.executed = #[c.label] ++ t₁.executed ∧
            t.fault = (c.faultOn I.meaning result v <|> t₁.fault)) ∧
        (∀ error v₂, c.request.continuation.apply I.meaning result v = (.error error, v₂) →
          c.faultOn I.meaning result v = some ⟨c.label, .continuation⟩ ∧
          e = .failure (passError error c.queue v₂).1)) ∧
    (∀ (e : Effect S) (w v : S.World), e.KeepsTo view → view w = view v →
      ∀ labels r s,
        (∃ t w', I.Ends (pure e) w r t w' ∧ view w' = s ∧ t.executed.toList = labels ∧
          t.OperationsSucceeded) ↔
        ∃ v', Rehearsal I.meaning e v labels r v' ∧ view v' = s) := by
  constructor
  · intro c result w v hc hanswer hview
    have hannounced : view (I.announce none c w) = view v := (hI.announce none c w).trans hview
    rcases hc.rehearse hM (hc.fixed hanswer) hannounced with
      ⟨e, v₁, a, w₁, hresume, hadvance, hforetold, he, hleft⟩
    have hends : ∀ r t s, (∃ w', I.Ends (pure (.command c)) w r t w' ∧ view w' = s) ↔
        ∃ t₁, (∃ v', I.Ends (pure e) v₁ r t₁ v' ∧ view v' = s) ∧
          t.executed = #[c.label] ++ t₁.executed ∧
          t.fault = (c.faultOn I.meaning result v <|> t₁.fault) := by
      intro r t s
      simp only [ends_view_iff hI]
      exact Run.command_iff hM hI hadvance hforetold he hleft r t s
    refine ⟨e, v₁, hresume, ?_, hends, ?_⟩
    · intro r
      simp only [returns_iff_ends]
      constructor
      · intro h
        rcases h with ⟨w', t, hrun⟩
        rcases (hends r t (view w')).1 ⟨w', hrun, rfl⟩ with ⟨t₁, ⟨v', hrest, -⟩, -⟩
        exact ⟨v', t₁, hrest⟩
      · intro h
        rcases h with ⟨v', t₁, hrest⟩
        have hcommand := (hends r ⟨_, _⟩ (view v')).2 ⟨t₁, ⟨v', hrest, rfl⟩, rfl, rfl⟩
        rcases hcommand with ⟨w', hrun, -⟩
        exact ⟨w', _, hrun⟩
    · intro error v₂ happly
      have hanswer := congrArg Prod.fst (hresume.symm.trans (Command.resume_of_error happly))
      exact ⟨by simp [Command.faultOn, happly], Except.ok.inj hanswer⟩
  · intro e w v he hview labels r s
    constructor
    · intro h
      rcases h with ⟨t, w', hends, hs, hlabels, ht⟩
      rcases (ends_view_iff hI).1 ⟨w', hends, hs⟩ with ⟨w₁, hrun, hs₁⟩
      rcases hrun.rehearsal hM hI he ht hview with ⟨v', hwalk, hend⟩
      rw [hlabels] at hwalk
      exact ⟨v', hwalk, hend.symm.trans hs₁⟩
    · intro h
      rcases h with ⟨v', hwalk, hs⟩
      rcases Run.of_rehearsal hM hI hwalk he hview with ⟨t, w₁, hrun, hend, hlabels, ht⟩
      rcases (ends_view_iff hI).2 ⟨w₁, hrun, hend.trans hs⟩ with ⟨w', hends, hs'⟩
      exact ⟨t, w', hends, hs', hlabels, ht⟩

namespace Diary

/-- The numbers that functions were called on, as far as they have written it down. -/
def calls (diary : List Line) : List Nat :=
  diary.filterMap fun line =>
    match line with
    | .called n => some n
    | _ => none

theorem calls_concat (diary : List Line) (line : Line) :
    calls (diary ++ [line]) = calls diary ++ calls [line] := by
  simp [calls]

theorem reportsUnseen : interpreter.ReportsUnseen calls := by
  intro event diary
  show calls (diary ++ [.reported event.report]) = calls diary
  rw [calls_concat]
  exact List.append_nil _

theorem ask_keepsTo (label : Label) (n : Nat) {queue : List (Link signature)}
    (hqueue : ∀ l ∈ queue, l.KeepsTo calls) : (ask label n queue).KeepsTo calls := by
  constructor
  · refine ⟨.ok n, fun diary => ⟨rfl, ?_⟩⟩
    show calls (diary ++ [.invoked label]) = calls diary
    rw [calls_concat]
    exact List.append_nil _
  · intro l hl
    rw [ask, Deque.toList_ofList] at hl
    exact hqueue l hl

theorem meaning_keepsTo : interpreter.meaning.KeepsTo calls := by
  constructor
  · intro label n diary diary' hview
    refine ⟨rfl, ?_, .command (ask_keepsTo label n nofun)⟩
    show calls (diary ++ [.called n]) = calls (diary' ++ [.called n])
    rw [calls_concat, calls_concat, hview]
  · intro r k
    exact nomatch k
  · intro r k n
    refine .pure fun e he => ?_
    by_cases hn : n = (0 : Nat)
    · simp [hn] at he
    · simp only [hn, ↓reduceIte] at he
      cases he
      exact Effect.KeepsTo.success (S := signature) n

theorem twice_keepsTo (n : Nat) :
    (ask first n [.onSuccess (.call second)]).KeepsTo calls := by
  refine ask_keepsTo first n fun l hl => ?_
  rw [List.mem_singleton] at hl
  subst hl
  exact .onSuccess (Step.KeepsTo.call (S := signature) second)

end Diary

open Diary in
/-- A number that is asked for twice by hand, in a diary that says something else already: it is
called on in the same way.  And zero is refused by hand as it is in a run. -/
theorem resume_predicts_run_twice :
    interpreter.meaning.KeepsTo calls ∧ interpreter.ReportsUnseen calls ∧
    (ask first 0 [.onSuccess (.call second)]).KeepsTo calls ∧ (twice 7).KeepsTo calls ∧
    calls [] = calls [.invoked third] ∧
    (∃ diary, Rehearsal interpreter.meaning (twice 7) [.invoked third] [first, second]
      (.ok (7 : Nat)) diary ∧ calls diary = [7]) ∧
    (∃ e diary, (ask first 0 [.onSuccess (.call second)]).resume interpreter.meaning () (0 : Nat)
        [.invoked third] = (.ok e, diary) ∧ e = .failure (0 : Nat) ∧
      ∃ diary', interpreter.Returns e diary (.error (0 : Nat)) diary') := by
  have hpredicts := resume_predicts_run interpreter calls meaning_keepsTo reportsUnseen
  refine ⟨meaning_keepsTo, reportsUnseen, twice_keepsTo 0, .command (twice_keepsTo 7), rfl, ?_, ?_⟩
  · refine (hpredicts.2 (twice 7) [] [.invoked third] (.command (twice_keepsTo 7)) rfl _ _ _).1 ?_
    exact ⟨_, _, ends_twice, rfl, rfl, nofun⟩
  · rcases hpredicts.1 _ (0 : Nat) [] [.invoked third] (twice_keepsTo 0) rfl rfl with
      ⟨e, diary, hresume, hreturns, -, hfault⟩
    have hfailure := (hfault (0 : Nat) [.invoked third] rfl).2
    have hruns : ∃ diary', interpreter.Returns (twice 0) [] (.error (0 : Nat)) diary' :=
      ⟨_, returns_iff_ends.2 ⟨_, ends_twice_zero⟩⟩
    refine ⟨e, diary, hresume, hfailure.trans ?_, (hreturns _).1 hruns⟩
    rw [ask, passError_ofList]
    rfl

end Interpreter

end Deferred
