import Deferred.Proofs.Passage
import Deferred.Proofs.Run

/-!
# RunLaws — what chaining makes of a run

A step that is chained behind an effect waits in the queue of the first command, and moves from
queue to queue until the last command has settled.  In the run nothing of this can be seen:

* `Interpreter.ends_andThen` — the run of a chain is the run of the effect, and after a success the
  step and the run of what it produces;
* `Interpreter.ends_mapErr` — the run with a transformed error is the same run, and the
  transformation once behind it if it ended in an error;
* `Interpreter.Diary` — a world in which everything is written down, with a run that succeeds and a
  run that faults.
-/

namespace Deferred

variable {S : Signature}

/-! ## One command -/

theorem Effect.link_command (M : Meaning S) (c : Command S) (l : Link S) :
    (Effect.command c).link M l = pure (.command (c.push l)) := by
  cases l <;> rfl

namespace Command

variable {M : Meaning S} {c : Command S} {w w₁ : S.World}

theorem advance_push_next {e : Effect S} (l : Link S) (h : c.advance M w = (.next e, w₁)) :
    (c.push l).advance M w = (.next (e.link M l w₁).1, (e.link M l w₁).2) := by
  rw [advance_push, Action.bind_apply, h]
  simp [Advance.pass, Effect.pass_singleton]

theorem advance_push_fault {phase : Phase} {error : S.Error} (l : Link S)
    (h : c.advance M w = (.fault phase error, w₁)) :
    (c.push l).advance M w =
      (.fault phase (passErrorAlong error [l] w₁).1, (passErrorAlong error [l] w₁).2) := by
  rw [advance_push, Action.bind_apply, h]
  simp [Advance.pass]

end Command

/-! ## Whole runs -/

namespace Interpreter

variable {I : Interpreter S} {span : Option String}

/-- Transform the error of a result. -/
def mapError (g : S.Error → Action S S.Error) :
    Except S.Error S.Value → Action S (Except S.Error S.Value)
  | .ok value => return .ok value
  | .error error => return .error (← g error)

namespace Run

variable {e : Effect S} {w w₁ w₂ : S.World} {r : Except S.Error S.Value} {t t₁ t₂ : Trace}

/-- A run that succeeds goes on with the step that is chained behind it. -/
theorem andThen_ok {f : Step S} {value : S.Value} (first : I.Run span e w (.ok value) t₁ w₁)
    (rest : I.Run span (f.run I.meaning value w₁).1 (f.run I.meaning value w₁).2 r t₂ w₂) :
    I.Run span (e.andThen I.meaning f w).1 (e.andThen I.meaning f w).2 r (t₁ ++ t₂) w₂ := by
  generalize hr : (Except.ok value : Except S.Error S.Value) = r₁ at first
  induction first with
  | success value' w =>
    cases hr
    rw [Trace.empty_append]
    exact rest
  | failure error w =>
    cases hr
  | next advanced _ ih =>
    -- The step has moved behind what the command leads to, where the hypothesis takes it on.
    rw [Trace.append_assoc]
    exact .next (Command.advance_push_next (.onSuccess f) advanced) (ih rest hr)
  | fault advanced =>
    cases hr

/-- A run that ends in an error does not reach the step that is chained behind it. -/
theorem andThen_error {f : Step S} {error : S.Error} (first : I.Run span e w (.error error) t w₁) :
    I.Run span (e.andThen I.meaning f w).1 (e.andThen I.meaning f w).2 (.error error) t w₁ := by
  generalize hr : (Except.error error : Except S.Error S.Value) = r₁ at first ⊢
  induction first with
  | success value w =>
    cases hr
  | failure error' w =>
    exact .failure error' w
  | next advanced _ ih =>
    exact .next (Command.advance_push_next (.onSuccess f) advanced) (ih hr)
  | fault advanced =>
    -- A fault passes the step by, with its error unchanged.
    exact .fault (Command.advance_push_fault (.onSuccess f) advanced)

/-- After a run that succeeds, a run of the chain is a run of what the step produces. -/
theorem rest_of_andThen {f : Step S} {value : S.Value}
    (first : I.Run span e w (.ok value) t₁ w₁)
    (h : I.Run span (e.andThen I.meaning f w).1 (e.andThen I.meaning f w).2 r t w₂) :
    ∃ t₂, I.Run span (f.run I.meaning value w₁).1 (f.run I.meaning value w₁).2 r t₂ w₂ ∧
      t = t₁ ++ t₂ := by
  generalize hr : (Except.ok value : Except S.Error S.Value) = r₁ at first
  induction first generalizing t with
  | success value' w =>
    cases hr
    exact ⟨t, h, (Trace.empty_append t).symm⟩
  | failure error w =>
    cases hr
  | next advanced _ ih =>
    have hpush := Command.advance_push_next (.onSuccess f) advanced
    cases h with
    | next advanced' rest =>
      cases hpush.symm.trans advanced'
      rcases ih rest hr with ⟨t₂, hrest, rfl⟩
      exact ⟨t₂, hrest, (Trace.append_assoc _ _ _).symm⟩
    | fault advanced' =>
      cases hpush.symm.trans advanced'
  | fault advanced =>
    cases hr

/-- If a command with one more link has a run, so does the command. -/
theorem of_push {c : Command S} {l : Link S}
    (h : I.Run span (.command (c.push l)) w r t w₂) :
    ∃ r₁ t₁ w₁, I.Run span (.command c) w r₁ t₁ w₁ := by
  generalize he : Effect.command (c.push l) = e at h
  induction h generalizing c with
  | success value w =>
    cases he
  | failure error w =>
    cases he
  | @next c' e' w w₁ w₂ r t advanced _ ih =>
    cases he
    rcases hc : c.advance I.meaning (I.announce span c w) with ⟨a, w₀⟩
    cases a with
    | fault phase error =>
      exact ⟨_, _, _, .fault hc⟩
    | next e =>
      have hnext : e.link I.meaning l w₀ = (e', w₁) := by
        have heq := (Command.advance_push_next l hc).symm.trans advanced
        rw [Prod.mk.injEq, Advance.next.injEq] at heq
        exact Prod.ext heq.1 heq.2
      cases e with
      | success value =>
        exact ⟨_, _, _, .next hc (.success value w₀)⟩
      | failure error =>
        exact ⟨_, _, _, .next hc (.failure error w₀)⟩
      | command c₁ =>
        -- The link has moved to the queue of the next command.
        rw [Effect.link_command] at hnext
        cases hnext
        rcases ih rfl with ⟨r₁, t₁, w₂, hrun⟩
        exact ⟨r₁, _, w₂, .next hc hrun⟩
  | @fault c' phase error w w₁ advanced =>
    cases he
    rcases hc : c.advance I.meaning (I.announce span c w) with ⟨a, w₀⟩
    cases a with
    | fault phase error =>
      exact ⟨_, _, _, .fault hc⟩
    | next e =>
      cases (Command.advance_push_next l hc).symm.trans advanced

/-- A run of an effect that a link was put behind begins with a run of the effect. -/
theorem of_link {l : Link S}
    (h : I.Run span (e.link I.meaning l w).1 (e.link I.meaning l w).2 r t w₂) :
    ∃ r₁ t₁ w₁, I.Run span e w r₁ t₁ w₁ := by
  cases e with
  | success value =>
    exact ⟨_, _, _, .success value w⟩
  | failure error =>
    exact ⟨_, _, _, .failure error w⟩
  | command c =>
    rw [Effect.link_command] at h
    exact of_push h

/-- A run with a transformed error is the same run, and the transformation behind it. -/
theorem mapErr (g : S.Error → Action S S.Error) (h : I.Run span e w r t w₁) :
    I.Run span (e.mapErr g w).1 (e.mapErr g w).2 (mapError g r w₁).1 t (mapError g r w₁).2 := by
  induction h with
  | success value w =>
    exact .success value w
  | failure error w =>
    exact .failure (g error w).1 (g error w).2
  | next advanced _ ih =>
    exact .next (Command.advance_push_next (.onError g) advanced) ih
  | fault advanced =>
    exact .fault (Command.advance_push_fault (.onError g) advanced)

/-- A run that ends in an error does the same with any links behind the effect, and then its error
passes through those that transform errors.  No step behind it is called. -/
theorem links_error {error : S.Error} (links : List (Link S))
    (first : I.Run span e w (.error error) t w₁) :
    I.Run span (links.foldlM (Effect.link I.meaning) e w).1
      (links.foldlM (Effect.link I.meaning) e w).2 (.error (passErrorAlong error links w₁).1) t
      (passErrorAlong error links w₁).2 := by
  induction links generalizing e w error w₁ with
  | nil =>
    exact first
  | cons l rest ih =>
    rw [List.foldlM_cons]
    cases l with
    | onSuccess step => exact ih first.andThen_error
    | onError f => exact ih (first.mapErr f)

end Run

/-! ## A diary -/

namespace Diary

inductive Line where
  | reported (report : Report)
  | invoked (label : Label)
  | called (n : Nat)
  deriving DecidableEq

/-- Numbers as values, errors and results, in a world in which everything is written down. -/
abbrev signature : Signature where
  World := List Line
  Value := Nat
  Error := Nat
  ResultType := Unit
  Result _ := Nat
  typeName _ := "number"
  Fn := Label
  Cont _ := Empty
  TryCont _ := Unit

def write (line : Line) : Action signature Unit := fun diary => ((), diary ++ [line])

@[simp] theorem write_apply (line : Line) (diary : List Line) :
    write line diary = ((), diary ++ [line]) := rfl

/-- An operation that answers a number, which must not be zero. -/
def ask (label : Label) (n : Nat) (queue : List (Link signature)) : Command signature where
  label := label
  request := ⟨(), do write (.invoked label); return .ok n, .fallible ()⟩
  queue := .ofList queue

/-- A step is named after the operation that it asks for the number it is called on. -/
def interpreter : Interpreter signature where
  meaning :=
    { call := fun label (n : Nat) => do
        write (.called n)
        return .command (ask label n [])
      resume := nofun
      tryResume := fun _ (n : Nat) => return if n = 0 then .error n else .ok (.success n) }
  observe event := write (.reported event.report)

/-- What the diary says of an operation. -/
def entry (label : Label) : List Line := [.reported (.running label), .invoked label]

def first : Label := ⟨"first"⟩

def second : Label := ⟨"second"⟩

def third : Label := ⟨"third"⟩

/-- A number that is asked for twice. -/
def twice (n : Nat) : Effect signature :=
  .command (ask first n [.onSuccess (.call second)])

/-- A transformation that is written down. -/
def noted (n : Nat) : Action signature Nat := do
  write (.called n)
  return n + 1

theorem advance_ask {n : Nat} (hn : n ≠ 0) (label : Label) (queue : List (Link signature))
    (diary : List Line) :
    (ask label n queue).advance interpreter.meaning
        (interpreter.announce none (ask label n queue) diary) =
      (Advance.next <$> (Effect.success n).pass interpreter.meaning (.ofList queue))
        (diary ++ entry label) := by
  simp [Command.advance, ask, interpreter, Continuation.apply, announce, entry, hn]

theorem advance_ask_zero (label : Label) (queue : List (Link signature)) (diary : List Line) :
    (ask label 0 queue).advance interpreter.meaning
        (interpreter.announce none (ask label 0 queue) diary) =
      (Advance.fault .continuation <$> passErrorAlong (0 : Nat) queue) (diary ++ entry label) := by
  simp [Command.advance, ask, interpreter, Continuation.apply, announce, entry]

theorem run_ask {n : Nat} (hn : n ≠ 0) (label : Label) (diary : List Line) :
    interpreter.Run none (.command (ask label n [])) diary (.ok n) (.invoked label)
      (diary ++ entry label) := by
  have hadvance := advance_ask hn label [] diary
  rw [Effect.pass_nil] at hadvance
  have hrun : interpreter.Run none (.command (ask label n [])) diary (.ok n)
      (.invoked label ++ .empty) (diary ++ entry label) := .next hadvance (.success _ _)
  rwa [Trace.append_empty] at hrun

theorem ends_twice :
    interpreter.Ends (pure (twice 7)) [] (.ok (7 : Nat)) ⟨#[first, second], none⟩
      (entry first ++ [.called 7] ++ entry second) := by
  have hfirst := advance_ask (n := 7) (by decide) first [.onSuccess (.call second)] []
  rw [Effect.pass_singleton] at hfirst
  exact ends_iff_run.2 ⟨_, .next hfirst (run_ask (by decide) second _), rfl⟩

theorem ends_twice_zero :
    interpreter.Ends (pure (twice 0)) [] (.error (0 : Nat))
      ⟨#[first], some ⟨first, .continuation⟩⟩
      (entry first ++ [.reported (.faulted first .continuation)]) :=
  ends_iff_run.2 ⟨_, .fault (advance_ask_zero first _ _), rfl⟩

end Diary

/-! ## Chains -/

/-- The run of a chain.  If the run of an effect ends in success, the run of the effect with a step
behind it ends exactly as the step's effect does when the step is called on that value in the
world that the first run has left; the record is that of both runs.  If the run of the effect ends
in an error, the run with the step behind it is the same run, up to the label and the phase of its
fault and up to the world that it leaves, so the step was not called.  And a chain only comes to an
end if the effect does.  The step may be one that notes its calls in the world. -/
theorem ends_andThen (I : Interpreter S) (e : Effect S) (f : Step S) (w : S.World) :
    (∀ value t₁ w₁, I.Ends (pure e) w (.ok value) t₁ w₁ →
      ∀ r t w₂, I.Ends (e.andThen I.meaning f) w r t w₂ ↔
        ∃ t₂, I.Ends (f.run I.meaning value) w₁ r t₂ w₂ ∧
          t.executed = t₁.executed ++ t₂.executed ∧ t.fault = t₂.fault) ∧
    (∀ error t₁ w₁, I.Ends (pure e) w (.error error) t₁ w₁ →
      ∀ r t w₂, I.Ends (e.andThen I.meaning f) w r t w₂ ↔
        r = .error error ∧ t = t₁ ∧ w₂ = w₁) ∧
    (∀ r t w₂, I.Ends (e.andThen I.meaning f) w r t w₂ →
      ∃ r₁ t₁ w₁, I.Ends (pure e) w r₁ t₁ w₁) := by
  refine ⟨?_, ?_, ?_⟩
  · intro value t₁ w₁ h₁ r t w₂
    rcases ends_iff_run.1 h₁ with ⟨w₁', first, hw₁⟩
    -- A run that succeeds has no fault to report, so it ends in the world of its derivation.
    have hfault : t₁.fault = none := first.fault_eq_none
    have hw₁ : w₁' = w₁ := by
      simpa [reportFault, hfault] using hw₁
    subst hw₁
    constructor
    · intro h
      rcases ends_iff_run.1 h with ⟨w₂', hrun, hw₂⟩
      rcases first.rest_of_andThen hrun with ⟨t₂, rest, ht⟩
      have hreport : (I.reportFault none t₂ w₂').2 = w₂ := by
        rw [← hw₂, ht, reportFault_append t₁ t₂ hfault]
      exact ⟨t₂, ends_iff_run.2 ⟨w₂', rest, hreport⟩, (Trace.eq_append_iff hfault).1 ht⟩
    · intro h
      rcases h with ⟨t₂, h₂, hrecord⟩
      rcases ends_iff_run.1 h₂ with ⟨w₂', rest, hw₂⟩
      have ht : t = t₁ ++ t₂ := (Trace.eq_append_iff hfault).2 hrecord
      have hrun := first.andThen_ok rest
      refine ends_iff_run.2 ⟨w₂', ht ▸ hrun, ?_⟩
      rw [ht, reportFault_append t₁ t₂ hfault, hw₂]
  · intro error t₁ w₁ h₁ r t w₂
    rcases ends_iff_run.1 h₁ with ⟨w₁', first, hw₁⟩
    have hrun := first.andThen_error (f := f)
    constructor
    · intro h
      rcases ends_iff_run.1 h with ⟨w₂', hrun', hw₂⟩
      rcases hrun.unique hrun' with ⟨hr, ht, hw⟩
      subst hr ht hw
      exact ⟨rfl, rfl, hw₂.symm.trans hw₁⟩
    · intro h
      rcases h with ⟨rfl, rfl, rfl⟩
      exact ends_iff_run.2 ⟨w₁', hrun, hw₁⟩
  · intro r t w₂ h
    rcases ends_iff_run.1 h with ⟨w₂', hrun, -⟩
    rcases Run.of_link (l := .onSuccess f) hrun with ⟨r₁, t₁, w₁, first⟩
    exact ⟨r₁, t₁, _, ends_iff_run.2 ⟨w₁, first, rfl⟩⟩

open Diary in
/-- A third operation is asked for behind the second one, and not at all after a fault. -/
theorem ends_andThen_twice :
    interpreter.Ends ((twice 7).andThen interpreter.meaning (.call third)) [] (.ok (7 : Nat))
      ⟨#[first, second, third], none⟩
      (entry first ++ [.called 7] ++ entry second ++ [.called 7] ++ entry third) ∧
    interpreter.Ends ((twice 0).andThen interpreter.meaning (.call third)) [] (.error (0 : Nat))
      ⟨#[first], some ⟨first, .continuation⟩⟩
      (entry first ++ [.reported (.faulted first .continuation)]) := by
  constructor
  · have hchain := (ends_andThen interpreter (twice 7) (.call third) []).1 _ _ _ ends_twice
    refine (hchain _ _ _).2 ⟨.invoked third, ?_, rfl, rfl⟩
    exact ends_iff_run.2 ⟨_, run_ask (by decide) third _, rfl⟩
  · have hchain := (ends_andThen interpreter (twice 0) (.call third) []).2.1 _ _ _ ends_twice_zero
    exact (hchain _ _ _).2 ⟨rfl, rfl, rfl⟩

/-- The run of an effect whose error is transformed.  If the run of the effect ends in success, the
run with the transformation is the same, so nothing was transformed.  If it ends in an error, let
`w₁` be the world in which its fault, if it is one, is about to be reported: the run with the
transformation comes to the same world, there transforms the error once, and only then reports the
fault.  The record is the same in all cases.  And the run with the transformation only comes to an
end if the run of the effect does. -/
theorem ends_mapErr (I : Interpreter S) (e : Effect S) (g : S.Error → Action S S.Error)
    (w : S.World) :
    (∀ value t w₁, I.Ends (pure e) w (.ok value) t w₁ →
      ∀ r t' w', I.Ends (e.mapErr g) w r t' w' ↔ r = .ok value ∧ t' = t ∧ w' = w₁) ∧
    (∀ error t w₂, I.Ends (pure e) w (.error error) t w₂ →
      ∃ w₁, I.hushed.Ends (pure e) w (.error error) t w₁ ∧
        w₂ = (I.reportFault none t w₁).2 ∧
        ∀ r t' w', I.Ends (e.mapErr g) w r t' w' ↔
          r = .error (g error w₁).1 ∧ t' = t ∧
            w' = (I.reportFault none t (g error w₁).2).2) ∧
    (∀ r t w', I.Ends (e.mapErr g) w r t w' →
      ∃ r₁ t₁ w₁, I.Ends (pure e) w r₁ t₁ w₁) := by
  refine ⟨?_, ?_, ?_⟩
  · intro value t w₁ h₁ r t' w'
    rcases ends_iff_run.1 h₁ with ⟨w₁', first, hw₁⟩
    have hrun := first.mapErr g
    constructor
    · intro h
      rcases ends_iff_run.1 h with ⟨w₂', hrun', hw₂⟩
      rcases hrun.unique hrun' with ⟨rfl, rfl, rfl⟩
      exact ⟨rfl, rfl, hw₂.symm.trans hw₁⟩
    · intro h
      rcases h with ⟨rfl, rfl, rfl⟩
      exact ends_iff_run.2 ⟨w₁', hrun, hw₁⟩
  · intro error t w₂ h₁
    -- The derivation stops short of the report, and that is where the transformation is called.
    rcases ends_iff_run.1 h₁ with ⟨w₁, first, hw₁⟩
    refine ⟨w₁, ends_hushed_iff_run.2 first, hw₁.symm, fun r t' w' => ?_⟩
    have hrun := first.mapErr g
    constructor
    · intro h
      rcases ends_iff_run.1 h with ⟨w₂', hrun', hw₂⟩
      rcases hrun.unique hrun' with ⟨rfl, rfl, rfl⟩
      exact ⟨rfl, rfl, hw₂.symm⟩
    · intro h
      rcases h with ⟨rfl, rfl, rfl⟩
      exact ends_iff_run.2 ⟨_, hrun, rfl⟩
  · intro r t w' h
    rcases ends_iff_run.1 h with ⟨w₂', hrun, -⟩
    rcases Run.of_link (l := .onError g) hrun with ⟨r₁, t₁, w₁, first⟩
    exact ⟨r₁, t₁, _, ends_iff_run.2 ⟨w₁, first, rfl⟩⟩

open Diary in
/-- A transformation leaves a success alone, and is called on a fault before that is reported. -/
theorem ends_mapErr_twice :
    interpreter.Ends ((twice 7).mapErr noted) [] (.ok (7 : Nat)) ⟨#[first, second], none⟩
      (entry first ++ [.called 7] ++ entry second) ∧
    interpreter.Ends ((twice 0).mapErr noted) [] (.error (1 : Nat))
      ⟨#[first], some ⟨first, .continuation⟩⟩
      (entry first ++ [.called 0] ++ [.reported (.faulted first .continuation)]) := by
  constructor
  · have hchain := (ends_mapErr interpreter (twice 7) noted []).1 _ _ _ ends_twice
    exact (hchain _ _ _).2 ⟨rfl, rfl, rfl⟩
  · have hchain := (ends_mapErr interpreter (twice 0) noted []).2.1 _ _ _ ends_twice_zero
    rcases hchain with ⟨diary, -, hdiary, hends⟩
    have hdiary : entry first = diary := List.append_cancel_right hdiary
    subst hdiary
    exact (hends _ _ _).2 ⟨rfl, rfl, rfl⟩

end Interpreter

end Deferred
