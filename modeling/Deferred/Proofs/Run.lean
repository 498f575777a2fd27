import Deferred.Interpreter

/-!
# Run — runs that come to an end

The interpreter counts the operations that it may still invoke.  A run that comes to an end does
not depend on that number, and is described here by a derivation instead: one rule for each way in
which a command is left.

* `Trace.append` — the record of a run that another one follows;
* `Interpreter.Run` — a run that ends, up to the report of its fault;
* `Interpreter.reportFault` — that report;
* `Interpreter.Ends`, `Interpreter.Returns` — a run ends with a result and a record, or with a
  result alone, for some number of operations;
* `Interpreter.ends_iff_run` — both say the same.
-/

namespace Deferred

variable {S : Signature}

/-! ## Computations at a world -/

@[simp] theorem Action.pure_apply {α : Type} (a : α) (w : S.World) :
    (pure a : Action S α) w = (a, w) := rfl

@[simp] theorem Action.bind_apply {α β : Type} (x : Action S α) (f : α → Action S β)
    (w : S.World) : (x >>= f) w = f (x w).1 (x w).2 := rfl

@[simp] theorem Action.map_apply {α β : Type} (f : α → β) (x : Action S α) (w : S.World) :
    (f <$> x) w = (f (x w).1, (x w).2) := rfl

/-! ## Records -/

namespace Trace

/-- The record of a run that is followed by another one.  Only the last fault counts: a run that
faulted is not followed by anything. -/
def append (t u : Trace) : Trace where
  executed := t.executed ++ u.executed
  fault := u.fault <|> t.fault

instance : Append Trace := ⟨append⟩

/-- The record of one operation. -/
def invoked (label : Label) : Trace := Trace.empty.push label

@[simp] theorem fault_append (t u : Trace) : (t ++ u).fault = (u.fault <|> t.fault) := rfl

@[simp] theorem fault_invoked (label : Label) : (invoked label).fault = none := rfl

@[simp] theorem append_empty (t : Trace) : t ++ empty = t := by
  rcases t with ⟨executed, fault⟩
  show Trace.mk (executed ++ #[]) (none <|> fault) = _
  simp

@[simp] theorem empty_append (t : Trace) : empty ++ t = t := by
  rcases t with ⟨executed, fault⟩
  show Trace.mk (#[] ++ executed) (fault <|> none) = _
  cases fault <;> simp

theorem append_assoc (t u v : Trace) : t ++ u ++ v = t ++ (u ++ v) := by
  show Trace.mk (t.executed ++ u.executed ++ v.executed) (v.fault <|> u.fault <|> t.fault) =
    Trace.mk (t.executed ++ (u.executed ++ v.executed)) ((v.fault <|> u.fault) <|> t.fault)
  rw [Array.append_assoc]
  cases v.fault <;> simp

theorem eq_append_iff {t u v : Trace} (hu : u.fault = none) :
    t = u ++ v ↔ t.executed = u.executed ++ v.executed ∧ t.fault = v.fault := by
  have happend : u ++ v = ⟨u.executed ++ v.executed, v.fault⟩ := by
    show Trace.mk _ (v.fault <|> u.fault) = _
    rw [hu]
    cases v.fault <;> rfl
  rw [happend]
  constructor
  · intro h
    rw [h]
    exact ⟨rfl, rfl⟩
  · intro h
    rcases t with ⟨executed, fault⟩
    rcases h with ⟨rfl, rfl⟩
    rfl

theorem push_eq_append (t : Trace) (label : Label) : t.push label = t ++ invoked label := by
  show Trace.mk (t.executed.push label) t.fault = Trace.mk (t.executed ++ #[label]) _
  rw [Array.push_eq_append]
  rfl

theorem size_invoked_append (label : Label) (t : Trace) :
    (invoked label ++ t).size = t.size + 1 := by
  show (#[label] ++ t.executed).size = t.executed.size + 1
  rw [Array.size_append, Nat.add_comm]
  rfl

theorem faultedAt_append (t u : Trace) (f : Fault) :
    (t ++ u).faultedAt f = t ++ u.faultedAt f := rfl

end Trace

/-! ## Runs -/

namespace Interpreter

variable {I : Interpreter S} {span : Option String}

/-- The world in which the operation of a command is invoked: it has been reported. -/
def announce (I : Interpreter S) (span : Option String) (c : Command S) (w : S.World) : S.World :=
  (I.observe ⟨span, .running c.label⟩ w).2

/-- Report the fault of a run, if there is one. -/
def reportFault (I : Interpreter S) (span : Option String) (t : Trace) : Action S Unit :=
  match t.fault with
  | none => pure ()
  | some fault => I.observe ⟨span, .faulted fault.label fault.phase⟩

theorem reportFault_append (t u : Trace) (ht : t.fault = none) :
    I.reportFault span (t ++ u) = I.reportFault span u := by
  unfold reportFault
  rw [Trace.fault_append, ht]
  cases u.fault <;> rfl

theorem runFor_failure (limit : Nat) (error : S.Error) (trace : Option Trace) (w : S.World) :
    I.runFor span limit (.failure error) trace w = (some ⟨.error error, trace⟩, w) := by
  cases limit <;> rfl

/-- The interpreter goes on with what a command leads to. -/
theorem runFor_of_next {c : Command S} {e : Effect S} {w w₁ : S.World}
    (advanced : c.advance I.meaning (I.announce span c w) = (.next e, w₁)) (limit : Nat)
    (trace : Option Trace) :
    I.runFor span (limit + 1) (.command c) trace w =
      I.runFor span limit e (trace.map (·.push c.label)) w₁ := by
  unfold announce at advanced
  rw [runFor]
  simp [advanced]

/-- The interpreter reports a fault and stops. -/
theorem runFor_of_fault {c : Command S} {phase : Phase} {error : S.Error} {w w₁ : S.World}
    (advanced : c.advance I.meaning (I.announce span c w) = (.fault phase error, w₁))
    (limit : Nat) (trace : Option Trace) :
    I.runFor span (limit + 1) (.command c) trace w =
      (some ⟨.error error, trace.map fun t => (t.push c.label).faultedAt ⟨c.label, phase⟩⟩,
        (I.observe ⟨span, .faulted c.label phase⟩ w₁).2) := by
  unfold announce at advanced
  rw [runFor]
  simp [advanced, Function.comp_def]

theorem runFor_next {c : Command S} {e : Effect S} {w w₁ : S.World} {limit : Nat} {t₀ : Trace}
    (advanced : c.advance I.meaning (I.announce span c w) = (.next e, w₁)) :
    I.runFor span (limit + 1) (.command c) (some t₀) w =
      I.runFor span limit e (some (t₀ ++ .invoked c.label)) w₁ := by
  rw [runFor_of_next advanced, ← Trace.push_eq_append]
  rfl

theorem runFor_fault {c : Command S} {phase : Phase} {error : S.Error} {w w₁ : S.World}
    {limit : Nat} {t₀ : Trace}
    (advanced : c.advance I.meaning (I.announce span c w) = (.fault phase error, w₁)) :
    I.runFor span (limit + 1) (.command c) (some t₀) w =
      (some ⟨.error error, some (t₀ ++ (Trace.invoked c.label).faultedAt ⟨c.label, phase⟩)⟩,
        (I.observe ⟨span, .faulted c.label phase⟩ w₁).2) := by
  rw [runFor_of_fault advanced, ← Trace.faultedAt_append, ← Trace.push_eq_append]
  rfl

/-- A run from an effect and a world to a result, a record, and the world in which nothing but the
report of its fault is left to do. -/
inductive Run (I : Interpreter S) (span : Option String) :
    Effect S → S.World → Except S.Error S.Value → Trace → S.World → Prop where
  | success (value : S.Value) (w : S.World) :
      Run I span (.success value) w (.ok value) .empty w
  | failure (error : S.Error) (w : S.World) :
      Run I span (.failure error) w (.error error) .empty w
  | next {c : Command S} {e : Effect S} {w w₁ w₂ : S.World} {r : Except S.Error S.Value}
      {t : Trace} (advanced : c.advance I.meaning (I.announce span c w) = (.next e, w₁))
      (rest : Run I span e w₁ r t w₂) :
      Run I span (.command c) w r (.invoked c.label ++ t) w₂
  | fault {c : Command S} {phase : Phase} {error : S.Error} {w w₁ : S.World}
      (advanced : c.advance I.meaning (I.announce span c w) = (.fault phase error, w₁)) :
      Run I span (.command c) w (.error error)
        ((Trace.invoked c.label).faultedAt ⟨c.label, phase⟩) w₁

namespace Run

variable {e : Effect S} {w w' : S.World} {r : Except S.Error S.Value} {t : Trace}

/-- An effect and a world have one run. -/
theorem unique {w'' : S.World} {r' : Except S.Error S.Value} {t' : Trace}
    (h : I.Run span e w r t w') (h' : I.Run span e w r' t' w'') :
    r' = r ∧ t' = t ∧ w'' = w' := by
  induction h generalizing r' t' w'' with
  | success value w =>
    cases h'
    exact ⟨rfl, rfl, rfl⟩
  | failure error w =>
    cases h'
    exact ⟨rfl, rfl, rfl⟩
  | next advanced rest ih =>
    -- What a command leads to is a function of the world, so the other run takes the same rule.
    cases h' with
    | next advanced' rest' =>
      rw [advanced] at advanced'
      cases advanced'
      rcases ih rest' with ⟨hr, ht, hw⟩
      exact ⟨hr, by rw [ht], hw⟩
    | fault advanced' =>
      rw [advanced] at advanced'
      cases advanced'
  | fault advanced =>
    cases h' with
    | next advanced' rest' =>
      rw [advanced] at advanced'
      cases advanced'
    | fault advanced' =>
      rw [advanced] at advanced'
      cases advanced'
      exact ⟨rfl, rfl, rfl⟩

/-- A run that faulted did not end in success. -/
theorem fault_eq_none {value : S.Value} (h : I.Run span e w (.ok value) t w') :
    t.fault = none := by
  generalize hr : (Except.ok value : Except S.Error S.Value) = r at h
  induction h with
  | success value w =>
    rfl
  | failure error w =>
    rfl
  | next advanced rest ih =>
    simp [ih hr]
  | fault advanced =>
    cases hr

/-- A derivation is found by the interpreter when it may invoke as many operations as the record
names. -/
theorem runFor_of_le (h : I.Run span e w r t w') {limit : Nat} (hlimit : t.size ≤ limit)
    (t₀ : Trace) :
    I.runFor span limit e (some t₀) w =
      (some ⟨r, some (t₀ ++ t)⟩, (I.reportFault span t w').2) := by
  induction h generalizing limit t₀ with
  | success value w =>
    rw [Trace.append_empty]
    cases limit <;> rfl
  | failure error w =>
    rw [Trace.append_empty]
    cases limit <;> rfl
  | @next c e w w₁ w₂ r t advanced rest ih =>
    rw [Trace.size_invoked_append] at hlimit
    -- One operation more than the rest of the run takes.
    obtain ⟨limit, rfl⟩ : ∃ n, limit = n + 1 := ⟨limit - 1, by omega⟩
    have hrest : t.size ≤ limit := by omega
    rw [runFor_next advanced, ih hrest, Trace.append_assoc,
      reportFault_append (.invoked c.label) t rfl]
  | @fault c phase error w w₁ advanced =>
    have hone : 1 ≤ limit := hlimit
    obtain ⟨limit, rfl⟩ : ∃ n, limit = n + 1 := ⟨limit - 1, by omega⟩
    rw [runFor_fault advanced]
    rfl

/-- With fewer operations than the record names, the interpreter gets to no end. -/
theorem runFor_of_lt (h : I.Run span e w r t w') {limit : Nat} (hlimit : limit < t.size)
    (t₀ : Trace) : (I.runFor span limit e (some t₀) w).1 = none := by
  induction h generalizing limit t₀ with
  | success value w =>
    exact absurd hlimit (Nat.not_lt_zero limit)
  | failure error w =>
    exact absurd hlimit (Nat.not_lt_zero limit)
  | @next c e w w₁ w₂ r t advanced rest ih =>
    rw [Trace.size_invoked_append] at hlimit
    cases limit with
    | zero =>
      rfl
    | succ limit =>
      rw [runFor_next advanced]
      exact ih (by omega) _
  | @fault c phase error w w₁ advanced =>
    have hzero : limit = 0 := Nat.lt_one_iff.1 hlimit
    subst hzero
    rfl

/-- What the interpreter finds is a derivation. -/
theorem of_runFor {limit : Nat} {t₀ : Trace} {f : Finished S}
    (h : I.runFor span limit e (some t₀) w = (some f, w')) :
    ∃ t w₁, I.Run span e w f.result t w₁ ∧ f.trace = some (t₀ ++ t) ∧
      (I.reportFault span t w₁).2 = w' := by
  induction limit generalizing e w t₀ with
  | zero =>
    cases e with
    | success value =>
      cases h
      exact ⟨.empty, _, .success value _, by simp, rfl⟩
    | failure error =>
      cases h
      exact ⟨.empty, _, .failure error _, by simp, rfl⟩
    | command c =>
      cases h
  | succ limit ih =>
    cases e with
    | success value =>
      cases h
      exact ⟨.empty, _, .success value _, by simp, rfl⟩
    | failure error =>
      cases h
      exact ⟨.empty, _, .failure error _, by simp, rfl⟩
    | command c =>
      rcases hc : c.advance I.meaning (I.announce span c w) with ⟨a, w₁⟩
      cases a with
      | next e =>
        rw [runFor_next hc] at h
        rcases ih h with ⟨t, w₂, hrun, htrace, hw⟩
        refine ⟨.invoked c.label ++ t, w₂, .next hc hrun, ?_, ?_⟩
        · rw [htrace, Trace.append_assoc]
        · rw [reportFault_append (.invoked c.label) t rfl, hw]
      | fault phase error =>
        rw [runFor_fault hc] at h
        cases h
        exact ⟨_, w₁, .fault hc, rfl, rfl⟩

end Run

/-! ## Runs without a record -/

/-- A run does the same whether a record is kept or not. -/
theorem runFor_none (I : Interpreter S) (span : Option String) (limit : Nat) (e : Effect S)
    (t₀ : Trace) :
    I.runFor span limit e none =
      Option.map (fun f => ⟨f.result, none⟩) <$> I.runFor span limit e (some t₀) := by
  induction limit generalizing e t₀ with
  | zero =>
    cases e <;> rfl
  | succ limit ih =>
    cases e with
    | success value =>
      rfl
    | failure error =>
      rfl
    | command c =>
      simp only [runFor, map_bind]
      refine bind_congr fun _ => bind_congr fun a => ?_
      cases a with
      | next e =>
        exact ih e (t₀.push c.label)
      | fault phase error =>
        simp

/-- A recorded run is the run without a record, in every span. -/
theorem running_eq_recording (I : Interpreter S) (limit : Nat) (e : Effect S)
    (span : Option String) :
    I.running limit e span = Option.map Prod.fst <$> I.recording limit e span := by
  rw [running, recording, runFor_none I span limit e .empty, bind_map_left, map_bind]
  refine bind_congr fun f? => ?_
  cases f? <;> rfl

theorem run_eq_runRecorded (I : Interpreter S) (limit : Nat) (e : Effect S) :
    I.run limit e = Option.map Prod.fst <$> I.runRecorded limit e :=
  I.running_eq_recording limit e none

/-! ## Recorded runs that end -/

/-- What is built has a recorded run that ends with a result and a record, provided that enough
operations may be invoked. -/
def Ends (I : Interpreter S) (build : Action S (Effect S)) (w : S.World)
    (r : Except S.Error S.Value) (t : Trace) (w' : S.World) : Prop :=
  ∃ limit, (build >>= fun e => I.runRecorded limit e) w = (some (r, t), w')

/-- An effect has a run that ends with a result, provided that enough operations may be
invoked. -/
def Returns (I : Interpreter S) (e : Effect S) (w : S.World) (r : Except S.Error S.Value)
    (w' : S.World) : Prop :=
  ∃ limit, I.run limit e w = (some r, w')

/-- The same interpreter, except that it does not report faults.  Its runs end right before the
report. -/
def hushed (I : Interpreter S) : Interpreter S where
  meaning := I.meaning
  observe event :=
    match event.report with
    | .running _ => I.observe event
    | .faulted _ _ => pure ()

section

variable {build : Action S (Effect S)} {w w' : S.World} {r : Except S.Error S.Value} {t : Trace}

/-- Of all numbers of operations that are enough, one is the least: that of the labels. -/
theorem Run.runRecorded_of_le {e : Effect S} (h : I.Run none e w r t w') {limit : Nat}
    (hlimit : t.size ≤ limit) :
    I.runRecorded limit e w = (some (r, t), (I.reportFault none t w').2) := by
  simp [runRecorded, recording, h.runFor_of_le hlimit .empty]

theorem Run.runRecorded_of_lt {e : Effect S} (h : I.Run none e w r t w') {limit : Nat}
    (hlimit : limit < t.size) : (I.runRecorded limit e w).1 = none := by
  simp [runRecorded, recording, h.runFor_of_lt hlimit .empty]

theorem ends_iff_run :
    I.Ends build w r t w' ↔
      ∃ w₁, I.Run none (build w).1 (build w).2 r t w₁ ∧ (I.reportFault none t w₁).2 = w' := by
  constructor
  · intro h
    rcases h with ⟨limit, hlimit⟩
    rcases hrun : I.runFor none limit (build w).1 (some .empty) (build w).2 with ⟨f?, w₂⟩
    simp only [runRecorded, recording, Action.bind_apply, hrun, Action.pure_apply] at hlimit
    cases f? with
    | none =>
      -- Too few operations were allowed, so nothing was recorded.
      cases hlimit
    | some f =>
      rcases Run.of_runFor hrun with ⟨t', w₁, hrun', htrace, hw⟩
      simp only [Option.map_some, htrace, Option.getD_some, Trace.empty_append] at hlimit
      cases hlimit
      exact ⟨w₁, hrun', hw⟩
  · intro h
    rcases h with ⟨w₁, hrun, hw⟩
    exact ⟨t.size, (hrun.runRecorded_of_le (Nat.le_refl _)).trans (by rw [hw])⟩

theorem Ends.unique {w'' : S.World} {r' : Except S.Error S.Value} {t' : Trace}
    (h : I.Ends build w r t w') (h' : I.Ends build w r' t' w'') :
    r' = r ∧ t' = t ∧ w'' = w' := by
  rcases ends_iff_run.1 h with ⟨w₁, hrun, hw⟩
  rcases ends_iff_run.1 h' with ⟨w₂, hrun', hw'⟩
  rcases hrun.unique hrun' with ⟨hr, ht, hworld⟩
  exact ⟨hr, ht, by rw [← hw, ← hw', ht, hworld]⟩

theorem returns_iff_ends {e : Effect S} :
    I.Returns e w r w' ↔ ∃ t, I.Ends (pure e) w r t w' := by
  have hrun : ∀ limit, I.run limit e w =
      ((I.runRecorded limit e w).1.map Prod.fst, (I.runRecorded limit e w).2) := by
    intro limit
    rw [run_eq_runRecorded]
    rfl
  constructor
  · intro h
    rcases h with ⟨limit, hlimit⟩
    rw [hrun] at hlimit
    rcases hrecorded : I.runRecorded limit e w with ⟨finished, w₁⟩
    rw [hrecorded] at hlimit
    cases finished with
    | none =>
      cases hlimit
    | some finished =>
      rcases finished with ⟨r', t⟩
      cases hlimit
      exact ⟨t, limit, hrecorded⟩
  · intro h
    rcases h with ⟨t, limit, hlimit⟩
    refine ⟨limit, ?_⟩
    have hrecorded : I.runRecorded limit e w = (some (r, t), w') := hlimit
    rw [hrun, hrecorded]
    rfl

theorem run_hushed_iff {e : Effect S} :
    I.hushed.Run span e w r t w' ↔ I.Run span e w r t w' := by
  -- Both interpreters announce operations alike, and a derivation has no other events.
  constructor
  · intro h
    induction h with
    | success value w =>
      exact .success value w
    | failure error w =>
      exact .failure error w
    | next advanced _ ih =>
      exact .next advanced ih
    | fault advanced =>
      exact .fault advanced
  · intro h
    induction h with
    | success value w =>
      exact .success value w
    | failure error w =>
      exact .failure error w
    | next advanced _ ih =>
      exact .next (I := I.hushed) advanced ih
    | fault advanced =>
      exact .fault (I := I.hushed) advanced

theorem ends_hushed_iff_run :
    I.hushed.Ends build w r t w' ↔ I.Run none (build w).1 (build w).2 r t w' := by
  have hreport : ∀ w₁, (I.hushed.reportFault none t w₁).2 = w₁ := by
    intro w₁
    unfold reportFault
    cases t.fault <;> rfl
  rw [ends_iff_run]
  constructor
  · intro h
    rcases h with ⟨w₁, hrun, hw⟩
    rw [hreport] at hw
    exact hw ▸ run_hushed_iff.1 hrun
  · intro h
    exact ⟨w', run_hushed_iff.2 h, hreport w'⟩

end

end Interpreter

end Deferred
