import Deferred.Proofs.ChainLaws
import Deferred.Proofs.RunLaws
import Deferred.Proofs.Spies

/-!
# Counted — each counter tells how often its functions were called

Wrapped functions do what they did before, and beside that the counts grow by the calls that were
noted.  Two cases are looked at by themselves: steps behind an error, which are not called, and one
counter at several places, which counts the calls at each of them.

* `Spy.Exact` — what is left of counters and calls, in terms of each count;
* `Spy.Used` — so many calls of one counter were noted, and it has counted them;
* `Interpreter.links_behind_error` — nothing is counted for steps behind an error;
* `Step.reached`, `Step.runAll_wrapped` — the steps of a list that are called, and what a counter
  that wraps all of them has counted;
* `Interpreter.ends_wrapped` — a run that ends in success has counted every step once;
* `Counter.exact_and_transparent` — all that is said of counters.
-/

namespace Deferred

open Spy (Spied)

variable {S : Signature} {C : Counter → Prop} {M : Meaning S} {M' : Meaning S.spied}

/-! ## Counts -/

namespace Spy

/-- One computation does to the world what the other does, and their values are related.  Each
counter that there is has grown by the calls that were noted for it, and these are calls of counters
of the set only. -/
def Exact {α β : Type} (C : Counter → Prop) (P : α → β → Prop) (x : Action S α)
    (x' : Action S.spied β) : Prop :=
  ∀ w spy, P (x w).1 (x' (w, spy)).1 ∧ (x' (w, spy)).2.1 = (x w).2 ∧
    ∃ calls, (x' (w, spy)).2.2.calls = spy.calls ++ calls ∧ (∀ c ∈ calls, C c) ∧
      ∀ c : Counter, c.index < spy.counters.size →
        c.count (x' (w, spy)).2.2.counters =
          c.count spy.counters + UInt64.ofNat (calls.count c)

theorem Spied.exact {α β : Type} {P : α → β → Prop} {x : Action S α} {x' : Action S.spied β}
    (h : Spied C P x x') : Exact C P x x' := by
  intro w spy
  rcases h w spy with ⟨b, calls, hb, hcalls, hx'⟩
  rw [hx']
  exact ⟨hb, rfl, calls, rfl, hcalls, fun c hc => Counter.count_after spy.counters hc calls⟩

/-- So many calls of a counter were noted, and it has counted them. -/
structure Used (c : Counter) (n : Nat) (before last : Spy) : Prop where
  size : last.counters.size = before.counters.size
  calls : last.calls.count c = before.calls.count c + n
  count : c.index < before.counters.size →
    c.count last.counters = c.count before.counters + UInt64.ofNat n

namespace Used

variable {c : Counter} {m n : Nat} {spy spy₁ spy₂ : Spy}

theorem after (c : Counter) (spy : Spy) (calls : List Counter) :
    Used c (calls.count c) spy (spy.after calls) where
  size := Counters.size_after spy.counters calls
  calls := List.count_append
  count hc := Counter.count_after spy.counters hc calls

/-- Calls of other counters. -/
theorem after_others {calls : List Counter} (h : ∀ d ∈ calls, d ≠ c) :
    Used c 0 spy (spy.after calls) := by
  have hnone : calls.count c = 0 := List.count_eq_zero_of_not_mem fun hmem => h c hmem rfl
  exact hnone ▸ after c spy calls

theorem refl (c : Counter) (spy : Spy) : Used c 0 spy spy := by
  have hnil := after c spy []
  rwa [after_nil] at hnil

theorem trans (h : Used c m spy spy₁) (h' : Used c n spy₁ spy₂) : Used c (m + n) spy spy₂ where
  size := h'.size.trans h.size
  calls := by rw [h'.calls, h.calls, Nat.add_assoc]
  count hc := by
    have hc₁ : c.index < spy₁.counters.size := by rwa [h.size]
    rw [h'.count hc₁, h.count hc, UInt64.ofNat_add, UInt64.add_assoc]

end Used

/-- Functions that other counters wrap. -/
theorem Spied.unused {α β : Type} {P : α → β → Prop} {x : Action S α} {x' : Action S.spied β}
    {c : Counter} (h : Spied (· ≠ c) P x x') (s : S.spied.World) : Used c 0 s.2 (x' s).2.2 := by
  rcases h s.1 s.2 with ⟨b, calls, -, hcalls, hx'⟩
  have hx' : x' s = (b, ((x s.1).2, s.2.after calls)) := hx'
  rw [hx']
  exact .after_others hcalls

end Spy

open Spy (Exact Used)

/-! ## Behind an error -/

/-- All functions of links that transform errors are wrapped by other counters, if at all. -/
def Link.TransformsWithout (c : Counter) (links : List (Link S.spied)) : Prop :=
  ∀ f', .onError f' ∈ links → ∃ f : S.Error → Action S S.Error, Tracked (· ≠ c) f f'

theorem passErrorAlong_unused {c : Counter} {links : List (Link S.spied)}
    (h : Link.TransformsWithout c links) (error : S.Error) (s : S.spied.World) :
    Used c 0 s.2 (passErrorAlong (S := S.spied) error links s).2.2 := by
  induction links generalizing error s with
  | nil =>
    exact .refl c s.2
  | cons l rest ih =>
    have hrest : Link.TransformsWithout c rest := fun f' hf' => h f' (List.mem_cons_of_mem l hf')
    cases l with
    | onSuccess step =>
      exact ih hrest error s
    | onError f' =>
      rcases h f' List.mem_cons_self with ⟨f, hf⟩
      exact ((hf.spied error).unused s).trans (ih hrest (f' error s).1 (f' error s).2)

namespace Interpreter

variable {I : Interpreter S}

theorem reportFault_spied (t : Trace) (s : S.spied.World) :
    ((I.spied M').reportFault none t s).2.2 = s.2 := by
  unfold reportFault
  cases t.fault <;> rfl

/-- Nothing is counted for steps behind an error, whether it was there when they were chained, or
came of a run; nor are they noted. -/
theorem links_behind_error {c : Counter} {links : List (Link S.spied)}
    (hlinks : Link.TransformsWithout c links) {e : Effect S.spied} {s s₁ : S.spied.World}
    {error : S.Error} {t : Trace} (h : (I.spied M').Ends (pure e) s (.error error) t s₁) :
    ∃ error' s₂, (I.spied M').Ends (links.foldlM (Effect.link M') e) s (.error error') t s₂ ∧
      Used c 0 s₁.2 s₂.2 := by
  rcases ends_iff_run.1 h with ⟨s', hrun, hs⟩
  -- The run of the chain is the run that failed, with the error passed along the links.
  have hchain := hrun.links_error links
  refine ⟨_, _, ends_iff_run.2 ⟨_, hchain, rfl⟩, ?_⟩
  have hfirst : s₁.2 = s'.2 := by rw [← hs, reportFault_spied]
  rw [reportFault_spied, hfirst]
  exact passErrorAlong_unused hlinks error s'

end Interpreter

/-! ## At several places -/

namespace Step

/-- How many steps of a list are called when they are folded over an effect. -/
def reached (M : Meaning S) : List (Step S) → Effect S → S.World → Nat
  | step :: rest, .success value, w =>
      1 + reached M rest (step.run M value w).1 (step.run M value w).2
  | _, _, _ => 0

/-- How many steps are called when a list of them is run on values, one after the other. -/
def reachedAll (M : Meaning S) (steps : List (Step S)) : List S.Value → S.World → Nat
  | [], _ => 0
  | value :: rest, w =>
      reached M steps (.success value) w +
        reachedAll M steps rest (runAll M steps (.success value) w).2

/-- Steps that always succeed are all called. -/
theorem reached_eq_length {steps : List (Step S)}
    (h : ∀ step ∈ steps, ∀ value w, ∃ value', (step.run M value w).1 = .success value')
    (value : S.Value) (w : S.World) : reached M steps (.success value) w = steps.length := by
  induction steps generalizing value w with
  | nil => rfl
  | cons step rest ih =>
    rcases h step List.mem_cons_self value w with ⟨value', hvalue⟩
    rw [reached, hvalue, ih (fun s hs => h s (List.mem_cons_of_mem step hs)), List.length_cons,
      Nat.add_comm]

theorem reachedAll_eq_length {steps : List (Step S)}
    (h : ∀ step ∈ steps, ∀ value w, ∃ value', (step.run M value w).1 = .success value')
    (starts : List S.Value) (w : S.World) :
    reachedAll M steps starts w = starts.length * steps.length := by
  induction starts generalizing w with
  | nil => rw [reachedAll, List.length_nil, Nat.zero_mul]
  | cons start rest ih =>
    rw [reachedAll, reached_eq_length h, ih, List.length_cons, Nat.succ_mul, Nat.add_comm]

variable {c : Counter} {steps : List (Step S)} {steps' : List (Step S.spied)}

/-- A step that is wrapped: one call is counted, and what is built knows nothing of the counter. -/
theorem Watched.run_wrap (hM : M.Watched (· ≠ c) M') {step : Step S} {step' : Step S.spied}
    (h : step.Watched (· ≠ c) step') (value : S.Value) (w : S.World) (spy : Spy) :
    ∃ e' spy₁, (step.run M value w).1.Watched (· ≠ c) e' ∧ Used c 1 spy spy₁ ∧
      (c.wrap step').run M' value (w, spy) = (e', ((step.run M value w).2, spy₁)) := by
  rcases h.run hM value w (spy.after [c]) with ⟨e', calls, he, hcalls, hrun⟩
  have hone : Used c 1 spy (spy.after [c]) := by
    have hcount : [c].count c = 1 := List.count_singleton_self
    exact hcount ▸ Used.after c spy [c]
  refine ⟨e', _, he, hone.trans (.after_others hcalls), ?_⟩
  rw [Counter.run_wrap]
  exact hrun

/-- A list of steps behind a command is queued, and nothing is called. -/
theorem runAll_command (M : Meaning S) (steps : List (Step S)) (c : Command S) :
    runAll M steps (.command c) =
      pure (.command (c.inherit (.ofList (steps.map .onSuccess)))) := by
  rw [runAll_eq_pass, Effect.pass_command]

/-- A counter that wraps every step of a list, and is used for nothing else, counts the steps that
are called. -/
theorem runAll_wrapped (hM : M.Watched (· ≠ c) M') (h : WatchedAll (· ≠ c) steps steps')
    {e : Effect S} {e' : Effect S.spied} (he : e.Watched (· ≠ c) e') (w : S.World) (spy : Spy) :
    (runAll M' (steps'.map c.wrap) e' (w, spy)).2.1 = (runAll M steps e w).2 ∧
      Used c (reached M steps e w) spy (runAll M' (steps'.map c.wrap) e' (w, spy)).2.2 := by
  induction steps generalizing steps' e e' w spy with
  | nil =>
    cases h
    cases he <;> exact ⟨rfl, .refl c spy⟩
  | cons step rest ih =>
    cases h with
    | @cons _ step' _ rest' hstep hrest =>
      cases he with
      | success value =>
        -- The call of the step is counted, and so is what the others count behind it.
        rcases hstep.run_wrap hM value w spy with ⟨e₁', spy₁, he₁, hone, hrun⟩
        rcases ih hrest he₁ (step.run M value w).2 spy₁ with ⟨hworld, hmore⟩
        rw [List.map_cons, runAll, Action.bind_apply, hrun]
        exact ⟨hworld, hone.trans hmore⟩
      | failure error =>
        exact ⟨rfl, .refl c spy⟩
      | command hc =>
        rw [runAll_command, runAll_command]
        exact ⟨rfl, .refl c spy⟩

/-- So it does when the list is run on values, one after the other. -/
theorem runs_wrapped (hM : M.Watched (· ≠ c) M') (h : WatchedAll (· ≠ c) steps steps')
    (starts : List S.Value) (w : S.World) (spy : Spy) :
    Used c (reachedAll M steps starts w) spy
      (starts.mapM (fun value => runAll M' (steps'.map c.wrap) (.success value)) (w, spy)).2.2 := by
  induction starts generalizing w spy with
  | nil =>
    exact .refl c spy
  | cons start rest ih =>
    -- The next start finds the world that the steps leave behind without counters.
    rcases runAll_wrapped hM h (.success start) w spy with ⟨hworld, hused⟩
    have hmore := ih (runAll M steps (.success start) w).2
      (runAll M' (steps'.map c.wrap) (.success start) (w, spy)).2.2
    rw [← hworld] at hmore
    simp only [List.mapM_cons, Action.bind_apply]
    rw [reachedAll, ← hworld]
    exact hused.trans hmore

end Step

/-! ## In a run -/

namespace Interpreter

variable {I : Interpreter S} {c : Counter}

/-- A run of an effect whose functions other counters wrap. -/
theorem run_unused (hM : I.meaning.Watched (· ≠ c) M') {e : Effect S} {e' : Effect S.spied}
    (he : e.Watched (· ≠ c) e') {s s' : S.spied.World} {r : Except S.Error S.Value} {t : Trace}
    (h : (I.spied M').Run none e' s r t s') : Used c 0 s.2 s'.2 := by
  have hspied := (runFor_spied hM none t.size he (some .empty)).unused s
  have hrun := h.runFor_of_le (Nat.le_refl _) .empty
  rw [hrun, reportFault_spied] at hspied
  exact hspied

/-- A run of what is built there comes to a success only with so many calls of a counter. -/
def Counts (I : Interpreter S.spied) (c : Counter) (n : Nat)
    (build : Action S.spied (Effect S.spied)) (s : S.spied.World) : Prop :=
  ∀ value t s', I.Run none (build s).1 (build s).2 (.ok value) t s' → Used c n s.2 s'.2

/-- One more step behind it is called once. -/
theorem Counts.andThen (hM : I.meaning.Watched (· ≠ c) M') {step : Step S} {step' : Step S.spied}
    (hstep : step.Watched (· ≠ c) step') {n : Nat} {build : Action S.spied (Effect S.spied)}
    {s : S.spied.World} (h : (I.spied M').Counts c n build s) :
    (I.spied M').Counts c (n + 1) (build >>= fun e => e.andThen M' (c.wrap step')) s := by
  intro value t s₂ hrun
  rcases Run.of_link (l := .onSuccess (c.wrap step')) hrun with ⟨r₁, t₁, s₁, hfirst⟩
  cases r₁ with
  | error error =>
    -- The chain would have ended in this error.
    rcases hrun.unique hfirst.andThen_error with ⟨hr, -, -⟩
    cases hr
  | ok value₁ =>
    -- The run is split at the step: one call builds an effect, whose own run counts nothing more.
    rcases hfirst.rest_of_andThen hrun with ⟨t₂, hrest, -⟩
    rcases hstep.run_wrap hM value₁ s₁.1 s₁.2 with ⟨e', spy₁, he', hone, hcall⟩
    have hcall : (c.wrap step').run M' value₁ s₁ = (e', (_, spy₁)) := hcall
    have hrest : (I.spied M').Run none ((c.wrap step').run M' value₁ s₁).1
      ((c.wrap step').run M' value₁ s₁).2 (.ok value) t₂ s₂ := hrest
    rw [hcall] at hrest
    exact (h value₁ t₁ s₁ hfirst).trans (hone.trans (run_unused hM he' hrest))

theorem Counts.chain (hM : I.meaning.Watched (· ≠ c) M') {steps : List (Step S)}
    {steps' : List (Step S.spied)} (hsteps : Step.WatchedAll (· ≠ c) steps steps') {n : Nat}
    {build : Action S.spied (Effect S.spied)} {s : S.spied.World}
    (h : (I.spied M').Counts c n build s) :
    (I.spied M').Counts c (n + steps.length)
      (build >>= fun e => (steps'.map c.wrap).foldlM (Effect.andThen M') e) s := by
  induction steps generalizing steps' n build with
  | nil =>
    cases hsteps
    exact h
  | cons step rest ih =>
    cases hsteps with
    | @cons _ step' _ rest' hstep hrest =>
      have hchain := ih hrest (h.andThen hM hstep)
      rw [bind_assoc] at hchain
      rw [List.length_cons, Nat.add_comm rest.length, ← Nat.add_assoc]
      exact hchain

/-- A run of a chain that ends in success has called every step once. -/
theorem ends_wrapped (hM : I.meaning.Watched (· ≠ c) M') {steps : List (Step S)}
    {steps' : List (Step S.spied)} (hsteps : Step.WatchedAll (· ≠ c) steps steps') {e : Effect S}
    {e' : Effect S.spied} (he : e.Watched (· ≠ c) e') {s s' : S.spied.World} {value : S.Value}
    {t : Trace}
    (h : (I.spied M').Ends ((steps'.map c.wrap).foldlM (Effect.andThen M') e') s (.ok value) t s') :
    Used c steps.length s.2 s'.2 := by
  have hstart : (I.spied M').Counts c 0 (pure e') s :=
    fun _ _ _ hrun => run_unused hM he hrun
  rcases ends_iff_run.1 h with ⟨s₁, hrun, hs⟩
  have hlast : s'.2 = s₁.2 := by rw [← hs, reportFault_spied]
  have hused := hstart.chain hM hsteps value t s₁ hrun
  rw [Nat.zero_add] at hused
  rw [hlast]
  exact hused

end Interpreter

/-! ## All of it -/

namespace Counter

/-- Counters count exactly, and what they wrap does what it did before.

* Handles are made and copied, hit, and put into functions, in any order.  Every handle tells, up to
  a multiple of 2^64, how often its family was hit or a function was called that was tracked by it;
  other counters tell what they told before.
* Let any functions of steps and links be wrapped, those of effects that are built on the way
  included.  Whatever is done with an effect, whatever a pipeline builds and whichever effect is
  run, the answers, the results, the records and the world are as without counters, and each counter
  has grown by the number of calls of its functions.
* A counter of steps counts nothing behind an error.
* A counter that wraps all steps of a chain counts those that are called while it is built, and a
  run that ends in success has called each of them once, as often as it stands in the chain.
* So it is if the steps are a pipeline that is run any number of times.  If all steps succeed, each
  is counted for each start. -/
theorem exact_and_transparent [BEq S.Value] [BEq S.Error] {I : Interpreter S}
    (hM : I.meaning.Watched C M') :
    (∀ {α β : Type} (before : Counters) (calls : List Counter) (uses : List (Use S α β))
        (w : S.World),
      let last := ({} : Bench S α β).run uses (w, ⟨before, calls⟩)
      let t : Tally := uses.foldl Use.tally {}
      (∀ (handle i : Nat), t.handles[handle]? = some i → ∃ c, last.1.handles[handle]? = some c ∧
        (c.count last.2.2.counters).toNat = t.uses.count i % UInt64.size) ∧
      ∀ c : Counter, c.index < before.size → c.count last.2.2.counters = c.count before) ∧
    (∀ (e : Effect S) (e' : Effect S.spied), e.Watched C e' →
      (∀ hs hs', List.Forall₂ (Handling.Watched C) hs hs' →
        Exact C (Effect.AnswersWatched C) (e.handle I.meaning hs) (e'.handle M' hs')) ∧
      ∀ limit, Exact C Eq (I.runRecorded limit e) ((I.spied M').runRecorded limit e')) ∧
    (∀ (p : Pipeline S) (p' : Pipeline S.spied), Step.WatchedAll C p.toList p'.toList → ∀ start,
      Exact C (Effect.Watched C) (p.run I.meaning start) (p'.run M' start)) ∧
    (∀ (c : Counter) (links : List (Link S.spied)), Link.TransformsWithout c links →
      ∀ (e : Effect S.spied) (s s₁ : S.spied.World) (error : S.Error) (t : Trace),
        (I.spied M').Ends (pure e) s (.error error) t s₁ →
        ∃ error' s₂,
          (I.spied M').Ends (links.foldlM (Effect.link M') e) s (.error error') t s₂ ∧
          Used c 0 s₁.2 s₂.2) ∧
    ∀ (c : Counter) (steps : List (Step S)) (steps' : List (Step S.spied)),
      I.meaning.Watched (· ≠ c) M' → Step.WatchedAll (· ≠ c) steps steps' →
      (∀ (e : Effect S) (e' : Effect S.spied), e.Watched (· ≠ c) e' → ∀ s : S.spied.World,
        Used c (Step.reached I.meaning steps e s.1) s.2
            ((steps'.map c.wrap).foldlM (Effect.andThen M') e' s).2.2 ∧
          ∀ value t s',
            (I.spied M').Ends ((steps'.map c.wrap).foldlM (Effect.andThen M') e') s (.ok value) t
              s' → Used c steps.length s.2 s'.2) ∧
      ∀ (starts : List S.Value) (s : S.spied.World),
        Used c (Step.reachedAll I.meaning steps starts s.1) s.2
            (starts.mapM ((Pipeline.ofList (steps'.map c.wrap)).run M') s).2.2 ∧
          ((∀ step ∈ steps, ∀ value w,
              ∃ value', (step.run I.meaning value w).1 = .success value') →
            Step.reachedAll I.meaning steps starts s.1 = starts.length * steps.length) := by
  refine ⟨Bench.run_counts, fun e e' he => ⟨?handle, ?run⟩, ?pipeline, ?error, ?places⟩
  case handle =>
    intro hs hs' hhs
    exact (he.handle hM hhs).exact
  case run =>
    intro limit
    exact (Interpreter.runRecorded_spied hM limit he).exact
  case pipeline =>
    intro p p' hsteps start
    exact (hsteps.run hM (.success start)).exact
  case error =>
    intro c links hlinks e s s₁ error t h
    exact Interpreter.links_behind_error hlinks h
  case places =>
    intro c steps steps' hM hsteps
    constructor
    · intro e e' he s
      constructor
      · rw [← Step.runAll_eq_foldlM]
        exact (Step.runAll_wrapped hM hsteps he s.1 s.2).2
      · intro value t s' h
        exact Interpreter.ends_wrapped hM hsteps he h
    · intro starts s
      have hrun : (Pipeline.ofList (steps'.map c.wrap)).run M' =
          fun value => Step.runAll M' (steps'.map c.wrap) (.success value) := by
        funext value
        rw [Pipeline.run, Pipeline.toList_ofList]
      rw [hrun]
      exact ⟨Step.runs_wrapped hM hsteps starts s.1 s.2,
        fun h => Step.reachedAll_eq_length h starts s.1⟩

open Interpreter.Diary in
/-- A counter and its copy tell of two hits and of the call of a function that was tracked by the
copy.  A counter that wraps a step which stands in a pipeline twice has counted four calls after two
runs of the pipeline. -/
theorem exact_and_transparent_on_diary :
    let last := ({} : Bench signature Nat Nat).run
      [.new, .clone 0, .hit 0, .track 1 fun n => return n + n, .call 0 7, .hit 1] ([], ⟨{}, []⟩)
    let double : Step signature := .map fun (n : Nat) => return n + n
    interpreter.meaning.Watched (fun _ => True) interpreter.meaning.kept ∧
      (∃ c, last.1.handles[0]? = some c ∧ (c.count last.2.2.counters).toNat = 3) ∧
      Used ⟨0⟩ 4 ⟨⟨#[0]⟩, []⟩
        ([(3 : Nat), (5 : Nat)].mapM ((Pipeline.ofList
          (([double.kept, double.kept] : List (Step signature.spied)).map (wrap ⟨0⟩))).run
            interpreter.meaning.kept) ([], ⟨⟨#[0]⟩, []⟩)).2.2 := by
  intro last double
  have _ : BEq signature.Value := inferInstanceAs (BEq Nat)
  have _ : BEq signature.Error := inferInstanceAs (BEq Nat)
  have hmeaning : interpreter.meaning.Watched (fun _ => True) interpreter.meaning.kept :=
    Meaning.watched_kept _
  rcases exact_and_transparent (I := interpreter) hmeaning with ⟨huses, -, -, -, hplaces⟩
  refine ⟨hmeaning, ?_, ?_⟩
  · exact (huses {} [] [.new, .clone 0, .hit 0, .track 1 fun n => return n + n, .call 0 7, .hit 1]
      []).1 0 0 rfl
  · have hsteps : Step.WatchedAll (· ≠ (⟨0⟩ : Counter)) [double, double]
        [double.kept, double.kept] := Step.watchedAll_kept [double, double]
    exact ((hplaces ⟨0⟩ [double, double] _ (Meaning.watched_kept _) hsteps).2 [(3 : Nat), (5 : Nat)]
      ([], ⟨⟨#[0]⟩, []⟩)).1

end Counter

end Deferred
