import Deferred.Proofs.Handling
import Deferred.Proofs.Passage
import Deferred.Proofs.Tally

/-!
# Spies — functions that are counted do what they did before

Any functions of steps and of links may be wrapped so that a counter records each call.  The
functions that are wrapped note their calls by themselves, so it can be said what the counters
should have counted.

* `Spy.Spied` — a computation does what another one does, and notes and records certain calls;
* `Tracked` — a function, and the same function behind any number of counters;
* `Step.Watched`, `Link.Watched`, `Effect.Watched`, `Meaning.Watched` — steps, links, effects and
  names, some of whose functions are wrapped;
* `Step.kept`, `Effect.kept`, `Meaning.kept` — all of these with nothing wrapped;
* `Step.Watched.run`, `Effect.Watched.pass`, `Effect.Watched.resume` — what is built of them;
* `Effect.Watched.handle`, `Interpreter.runRecorded_spied` — what is done with it, and its runs.
-/

namespace Deferred

variable {S : Signature}

/-! ## Computations -/

namespace Spy

/-- What is left of counters and calls after further calls. -/
def after (spy : Spy) (calls : List Counter) : Spy :=
  ⟨spy.counters.after calls, spy.calls ++ calls⟩

theorem after_after (spy : Spy) (calls more : List Counter) :
    (spy.after calls).after more = spy.after (calls ++ more) := by
  unfold after
  rw [Counters.after_append, List.append_assoc]

theorem after_nil (spy : Spy) : spy.after [] = spy := by
  unfold after
  rw [List.append_nil]
  rfl

/-- Note that a function is called which a counter has wrapped. -/
def note (c : Counter) : Action S.spied Unit :=
  fun s => ((), (s.1, { s.2 with calls := s.2.calls ++ [c] }))

/-- One computation does to the world what the other does, and their values are related.  Beside
the world it leaves the calls of some counters of a set `C`, noted and recorded. -/
def Spied {α β : Type} (C : Counter → Prop) (P : α → β → Prop) (x : Action S α)
    (x' : Action S.spied β) : Prop :=
  ∀ w spy, ∃ b calls, P (x w).1 b ∧ (∀ c ∈ calls, C c) ∧
    x' (w, spy) = (b, ((x w).2, spy.after calls))

namespace Spied

variable {C : Counter → Prop} {α β γ δ : Type} {P : α → β → Prop} {Q : γ → δ → Prop}

theorem pure {a : α} {b : β} (h : P a b) : Spied (S := S) C P (Pure.pure a) (Pure.pure b) := by
  intro w spy
  refine ⟨b, [], h, nofun, ?_⟩
  rw [after_nil]
  rfl

theorem bind {x : Action S α} {x' : Action S.spied β} {f : α → Action S γ}
    {f' : β → Action S.spied δ} (hx : Spied C P x x')
    (hf : ∀ a b, P a b → Spied C Q (f a) (f' b)) : Spied C Q (x >>= f) (x' >>= f') := by
  intro w spy
  rcases hx w spy with ⟨b, calls, hb, hcalls, hx'⟩
  rcases hf _ b hb (x w).2 (spy.after calls) with ⟨d, more, hd, hmore, hf'⟩
  refine ⟨d, calls ++ more, hd, List.forall_mem_append.2 ⟨hcalls, hmore⟩, ?_⟩
  rw [Action.bind_apply, hx', hf', Action.bind_apply, after_after]

theorem keep (x : Action S α) : Spied C Eq x (Spy.keep x) := by
  intro w spy
  refine ⟨(x w).1, [], rfl, nofun, ?_⟩
  rw [after_nil]
  rfl

theorem keep_map (x : Action S α) {g : α → β} (h : ∀ a, P a (g a)) :
    Spied C P x (g <$> Spy.keep x) := by
  intro w spy
  refine ⟨g (x w).1, [], h _, nofun, ?_⟩
  rw [after_nil]
  rfl

/-- Behind the record and the note of one call. -/
theorem counted {c : Counter} (hc : C c) {x : Action S α} {x' : Action S.spied β}
    (h : Spied C P x x') :
    Spied C P x (do c.record (S := S.spied); note c; x') := by
  intro w spy
  rcases h w (spy.after [c]) with ⟨b, calls, hb, hcalls, hx'⟩
  refine ⟨b, c :: calls, hb, List.forall_mem_cons.2 ⟨hc, hcalls⟩, ?_⟩
  rw [← List.singleton_append, ← after_after]
  exact hx'

end Spied

end Spy

open Spy (Spied keep note)

/-! ## Functions -/

/-- The function notes its calls, behind the name of the counter that wraps it. -/
def noting {α β : Type} (c : Counter) (f : α → Action S.spied β) : α → Action S.spied β :=
  fun a => do
    note c
    f a

/-- A function, and the same function, wrapped by any number of counters of a set. -/
inductive Tracked (C : Counter → Prop) {α β : Type} (f : α → Action S β) :
    (α → Action S.spied β) → Prop where
  | kept : Tracked C f fun a => keep (f a)
  | tracked {c : Counter} {f' : α → Action S.spied β} (hc : C c) (h : Tracked C f f') :
      Tracked C f (c.track (S := S.spied) (noting c f'))

theorem Tracked.spied {C : Counter → Prop} {α β : Type} {f : α → Action S β}
    {f' : α → Action S.spied β} (h : Tracked C f f') (a : α) : Spied C Eq (f a) (f' a) := by
  induction h with
  | kept => exact .keep (f a)
  | tracked hc _ ih => exact .counted hc ih

/-! ## Steps, links and effects -/

/-- The step, wrapped as a whole by a counter. -/
def Counter.wrap (c : Counter) (step : Step S.spied) : Step S.spied :=
  c.watch (S := S.spied) (.after (note c) step)

mutual

/-- A step, and the same step with some of its functions wrapped, or wrapped as a whole. -/
inductive Step.Watched (C : Counter → Prop) : Step S → Step S.spied → Prop where
  | call (f : S.Fn) : Step.Watched C (.call f) (.call f)
  | map {f : S.Value → Action S S.Value} {f' : S.Value → Action S.spied S.Value}
      (h : Tracked C f f') : Step.Watched C (.map f) (.map f')
  | ensure {holds : S.Value → Action S Bool} {holds' : S.Value → Action S.spied Bool}
      {error : Unit → Action S S.Error} {error' : Unit → Action S.spied S.Error}
      (hholds : Tracked C holds holds') (herror : Tracked C error error') :
      Step.Watched C (.ensure holds (error ())) (.ensure holds' (error' ()))
  | andThen {first next : Step S} {first' next' : Step S.spied}
      (hfirst : Step.Watched C first first') (hnext : Step.Watched C next next') :
      Step.Watched C (.andThen first next) (.andThen first' next')
  | mapErr {step : Step S} {step' : Step S.spied} {f : S.Error → Action S S.Error}
      {f' : S.Error → Action S.spied S.Error} (h : Step.Watched C step step')
      (hf : Tracked C f f') : Step.Watched C (.mapErr step f) (.mapErr step' f')
  | after (before : Action S Unit) {step : Step S} {step' : Step S.spied}
      (h : Step.Watched C step step') :
      Step.Watched C (.after before step) (.after (keep before) step')
  | pipeline {steps : List (Step S)} {steps' : List (Step S.spied)}
      (h : Step.WatchedAll C steps steps') : Step.Watched C (.pipeline steps) (.pipeline steps')
  | wrapped {c : Counter} {step : Step S} {step' : Step S.spied} (hc : C c)
      (h : Step.Watched C step step') :
      Step.Watched C step (c.wrap step')

inductive Step.WatchedAll (C : Counter → Prop) : List (Step S) → List (Step S.spied) → Prop where
  | nil : Step.WatchedAll C [] []
  | cons {step : Step S} {step' : Step S.spied} {rest : List (Step S)}
      {rest' : List (Step S.spied)} (h : Step.Watched C step step')
      (hrest : Step.WatchedAll C rest rest') : Step.WatchedAll C (step :: rest) (step' :: rest')

end

inductive Link.Watched (C : Counter → Prop) : Link S → Link S.spied → Prop where
  | onSuccess {step : Step S} {step' : Step S.spied} (h : step.Watched C step') :
      Watched C (.onSuccess step) (.onSuccess step')
  | onError {f : S.Error → Action S S.Error} {f' : S.Error → Action S.spied S.Error}
      (h : Tracked C f f') : Watched C (.onError f) (.onError f')

/-- The same continuation, in a world with counters. -/
def Continuation.spied {r : S.ResultType} : Continuation S r → Continuation S.spied r
  | .total k => .total k
  | .fallible k => .fallible k

/-- A command, and the same command with wrapped functions in its queue.  Its operation may be
wrapped as well. -/
inductive Command.Watched (C : Counter → Prop) : Command S → Command S.spied → Prop where
  | intro (label : Label) {r : S.ResultType}
      {operation : Unit → Action S (Except S.Error (S.Result r))}
      {operation' : Unit → Action S.spied (Except S.Error (S.Result r))}
      (hoperation : Tracked C operation operation') (k : Continuation S r)
      {links : List (Link S)} {links' : List (Link S.spied)}
      (hlinks : List.Forall₂ (Link.Watched C) links links') :
      Watched C ⟨label, ⟨r, operation (), k⟩, .ofList links⟩
        ⟨label, ⟨r, operation' (), k.spied⟩, .ofList links'⟩

inductive Effect.Watched (C : Counter → Prop) : Effect S → Effect S.spied → Prop where
  | success (value : S.Value) : Watched C (.success value) (.success value)
  | failure (error : S.Error) : Watched C (.failure error) (.failure error)
  | command {c : Command S} {c' : Command S.spied} (h : c.Watched C c') :
      Watched C (.command c) (.command c')

/-- Names that stand for the same functions, some of which are wrapped, or return effects in which
some are. -/
structure Meaning.Watched (C : Counter → Prop) (M : Meaning S) (M' : Meaning S.spied) : Prop where
  call : ∀ f value, Spied C (Effect.Watched C) (M.call f value) (M'.call f value)
  resume : ∀ {r : S.ResultType} (k : S.Cont r) (result : S.Result r),
    Spied C (Effect.Watched C) (M.resume k result) (M'.resume k result)
  tryResume : ∀ {r : S.ResultType} (k : S.TryCont r) (result : S.Result r),
    Spied C (OrFault (Effect.Watched C)) (M.tryResume k result) (M'.tryResume k result)

variable {C : Counter → Prop} {M : Meaning S} {M' : Meaning S.spied}

/-! ## Nothing wrapped -/

mutual

/-- The same step in a world with counters that it does not know of. -/
def Step.kept : Step S → Step S.spied
  | .call f => .call f
  | .map f => .map fun value => keep (f value)
  | .ensure holds error => .ensure (fun value => keep (holds value)) (keep error)
  | .andThen first next => .andThen first.kept next.kept
  | .mapErr step f => .mapErr step.kept fun error => keep (f error)
  | .after before step => .after (keep before) step.kept
  | .pipeline steps => .pipeline (Step.keptAll steps)

def Step.keptAll : List (Step S) → List (Step S.spied)
  | [] => []
  | step :: rest => step.kept :: Step.keptAll rest

end

def Link.kept : Link S → Link S.spied
  | .onSuccess step => .onSuccess step.kept
  | .onError f => .onError fun error => keep (f error)

def Effect.kept : Effect S → Effect S.spied
  | .success value => .success value
  | .failure error => .failure error
  | .command c =>
      .command ⟨c.label, ⟨c.request.result, keep c.request.operation, c.request.continuation.spied⟩,
        .ofList (c.queue.toList.map Link.kept)⟩

def Meaning.kept (M : Meaning S) : Meaning S.spied where
  call f value := Effect.kept <$> keep (M.call f value)
  resume k result := Effect.kept <$> keep (M.resume k result)
  tryResume k result := Except.map Effect.kept <$> keep (M.tryResume k result)

mutual

theorem Step.watched_kept : ∀ step : Step S, step.Watched C step.kept
  | .call f => .call f
  | .map _ => .map .kept
  | .ensure _ error => .ensure .kept (Tracked.kept (f := fun _ => error))
  | .andThen first next => .andThen first.watched_kept next.watched_kept
  | .mapErr step _ => .mapErr step.watched_kept .kept
  | .after before step => .after before step.watched_kept
  | .pipeline steps => .pipeline (Step.watchedAll_kept steps)

theorem Step.watchedAll_kept : ∀ steps : List (Step S), Step.WatchedAll C steps (Step.keptAll steps)
  | [] => .nil
  | step :: rest => .cons step.watched_kept (Step.watchedAll_kept rest)

end

theorem Link.watched_kept (links : List (Link S)) :
    List.Forall₂ (Link.Watched C) links (links.map Link.kept) := by
  induction links with
  | nil => exact .nil
  | cons l rest ih =>
    refine .cons ?_ ih
    cases l with
    | onSuccess step => exact .onSuccess step.watched_kept
    | onError f => exact .onError .kept

theorem Effect.watched_kept (e : Effect S) : e.Watched C e.kept := by
  cases e with
  | success value => exact .success value
  | failure error => exact .failure error
  | command c =>
    rcases c with ⟨label, ⟨r, operation, k⟩, queue⟩
    -- The queue is read as a list first, since watched queues are built of lists.
    have hwatched : Command.Watched C ⟨label, ⟨r, operation, k⟩, .ofList queue.toList⟩ _ :=
      .intro label (Tracked.kept (f := fun _ => operation)) k (Link.watched_kept queue.toList)
    rw [Deque.ofList_toList] at hwatched
    exact .command hwatched

theorem Meaning.watched_kept (M : Meaning S) : M.Watched C M.kept where
  call f value := .keep_map (M.call f value) Effect.watched_kept
  resume k result := .keep_map (M.resume k result) Effect.watched_kept
  tryResume k result := by
    refine .keep_map (M.tryResume k result) fun outcome => ?_
    cases outcome with
    | error error => exact .fault error
    | ok e => exact .value e.watched_kept

/-! ## Chaining -/

/-- A step that is wrapped is a function that is counted, and that notes its calls. -/
theorem Counter.run_wrap (M' : Meaning S.spied) (c : Counter) (step : Step S.spied)
    (value : S.Value) :
    (c.wrap step).run M' value = c.track (S := S.spied) (noting c (step.run M')) value := by
  show (do c.record (S := S.spied); (Step.after (note c) step).run M' value) = _
  rw [Step.run]
  rfl

theorem Command.Watched.push {c : Command S} {c' : Command S.spied} (h : c.Watched C c')
    {l : Link S} {l' : Link S.spied} (hl : l.Watched C l') : (c.push l).Watched C (c'.push l') := by
  cases h with
  | @intro label r operation operation' hoperation k links links' hlinks =>
    have hqueue : (Deque.ofList links).pushBack l = .ofList (links ++ [l]) := Deque.ext (by simp)
    have hqueue' : (Deque.ofList links').pushBack l' = .ofList (links' ++ [l']) :=
      Deque.ext (by simp)
    unfold Command.push
    rw [hqueue, hqueue']
    exact .intro label hoperation k (List.rel_append hlinks (.cons hl .nil))

namespace Effect.Watched

variable {e : Effect S} {e' : Effect S.spied}

theorem mapErr (h : e.Watched C e') {f : S.Error → Action S S.Error}
    {f' : S.Error → Action S.spied S.Error} (hf : Tracked C f f') :
    Spied C (Effect.Watched C) (e.mapErr f) (e'.mapErr f') := by
  cases h with
  | success value =>
    exact .pure (.success value)
  | failure error =>
    refine (hf.spied error).bind fun error' error'' herror => .pure ?_
    cases herror
    exact .failure error'
  | command hc =>
    exact .pure (.command (hc.push (.onError hf)))

theorem andThen (h : e.Watched C e') {step : Step S} {step' : Step S.spied}
    (hstep : step.Watched C step') (hrun : ∀ value, Spied C (Effect.Watched C) (step.run M value)
      (step'.run M' value)) :
    Spied C (Effect.Watched C) (e.andThen M step) (e'.andThen M' step') := by
  cases h with
  | success value =>
    exact hrun value
  | failure error =>
    exact .pure (.failure error)
  | command hc =>
    exact .pure (.command (hc.push (.onSuccess hstep)))

end Effect.Watched

mutual

/-- A step some of whose functions are wrapped builds what the step builds. -/
theorem Step.Watched.run (hM : M.Watched C M') :
    ∀ {step : Step S} {step' : Step S.spied}, step.Watched C step' → ∀ value,
      Spied C (Effect.Watched C) (step.run M value) (step'.run M' value)
  | _, _, .call f, value => by
    rw [Step.run, Step.run]
    exact hM.call f value
  | _, _, .map h, value => by
    rw [Step.run, Step.run]
    refine (h.spied value).bind fun value₁ value₂ hvalue => .pure ?_
    cases hvalue
    exact .success value₁
  | _, _, .ensure hholds herror, value => by
    rw [Step.run, Step.run]
    refine (hholds.spied value).bind fun b b' hb => ?_
    cases hb
    cases b with
    | true =>
      exact .pure (.success value)
    | false =>
      refine (herror.spied ()).bind fun error₁ error₂ herror => .pure ?_
      cases herror
      exact .failure error₁
  | _, _, .andThen hfirst hnext, value => by
    rw [Step.run_andThen, Step.run_andThen]
    exact (hfirst.run hM value).bind fun e e' he => he.andThen hnext (hnext.run hM)
  | _, _, .mapErr h hf, value => by
    rw [Step.run_mapErr, Step.run_mapErr]
    exact (h.run hM value).bind fun e e' he => he.mapErr hf
  | _, _, .after before h, value => by
    rw [Step.run, Step.run]
    exact (Spied.keep before).bind fun _ _ _ => h.run hM value
  | _, _, .pipeline h, value => by
    rw [Step.run, Step.run]
    exact h.run hM (.success value)
  | _, _, .wrapped hc h, value => by
    -- The step on the left is the same one: only the wrapped side is taken apart.
    rw [Counter.run_wrap]
    exact .counted hc (h.run hM value)

theorem Step.WatchedAll.run (hM : M.Watched C M') :
    ∀ {steps : List (Step S)} {steps' : List (Step S.spied)}, Step.WatchedAll C steps steps' →
      ∀ {e : Effect S} {e' : Effect S.spied}, e.Watched C e' →
        Spied C (Effect.Watched C) (Step.runAll M steps e) (Step.runAll M' steps' e')
  | _, _, .nil, _, _, he => by
    rw [Step.runAll, Step.runAll]
    exact .pure he
  | _, _, .cons h hrest, _, _, .success value => by
    rw [Step.runAll, Step.runAll]
    exact (h.run hM value).bind fun e e' he => hrest.run hM he
  | _, _, .cons h hrest, _, _, .failure error => by
    rw [Step.runAll, Step.runAll]
    exact .pure (.failure error)
  | _, _, .cons h hrest, _, _, .command hc => by
    rw [Step.runAll, Step.runAll]
    exact hrest.run hM (.command (hc.push (.onSuccess h)))

end

/-! ## Queues -/

theorem passErrorAlong_watched {links : List (Link S)} {links' : List (Link S.spied)}
    (h : List.Forall₂ (Link.Watched C) links links') (error : S.Error) :
    Spied C Eq (passErrorAlong error links) (passErrorAlong (S := S.spied) error links') := by
  induction h generalizing error with
  | nil =>
    exact .pure rfl
  | cons hl _ ih =>
    cases hl with
    | onSuccess _ =>
      exact ih error
    | onError hf =>
      refine (hf.spied error).bind fun error₁ error₂ herror => ?_
      cases herror
      exact ih error₁

theorem Effect.Watched.link (hM : M.Watched C M') {e : Effect S} {e' : Effect S.spied}
    (h : e.Watched C e') {l : Link S} {l' : Link S.spied} (hl : l.Watched C l') :
    Spied C (Effect.Watched C) (e.link M l) (e'.link M' l') := by
  cases hl with
  | onSuccess hstep => exact h.andThen hstep (hstep.run hM)
  | onError hf => exact h.mapErr hf

theorem Effect.Watched.pass (hM : M.Watched C M') {links : List (Link S)}
    {links' : List (Link S.spied)} (hlinks : List.Forall₂ (Link.Watched C) links links')
    {e : Effect S} {e' : Effect S.spied} (h : e.Watched C e') :
    Spied C (Effect.Watched C) (e.pass M (.ofList links)) (e'.pass M' (.ofList links')) := by
  induction hlinks generalizing e e' with
  | nil =>
    rw [Effect.pass_nil, Effect.pass_nil]
    exact .pure h
  | cons hl _ ih =>
    rw [Effect.pass_cons, Effect.pass_cons]
    exact (h.link hM hl).bind fun e e' he => ih he

theorem Continuation.apply_watched (hM : M.Watched C M') {r : S.ResultType} (k : Continuation S r)
    (result : S.Result r) :
    Spied C (OrFault (Effect.Watched C)) (k.apply M result) (k.spied.apply M' result) := by
  cases k with
  | total k => exact (hM.resume k result).bind fun e e' he => .pure (.value he)
  | fallible k => exact hM.tryResume k result

/-! ## By hand -/

theorem Command.Watched.resume (hM : M.Watched C M') {c : Command S} {c' : Command S.spied}
    (h : c.Watched C c') (r : S.ResultType) (result : S.Result r) :
    Spied C (OrFault (Effect.Watched C)) (c.resume M r result) (c'.resume M' r result) := by
  cases h with
  | @intro label r' operation operation' hoperation k links links' hlinks =>
    unfold Command.resume
    -- Both requests are for results of one type, so both refuse the result or neither does.
    by_cases hr : r = r'
    · subst hr
      simp only [↓reduceDIte, passError_ofList]
      refine (k.apply_watched hM result).bind fun outcome outcome' houtcome => ?_
      cases houtcome with
      | fault error =>
        refine (passErrorAlong_watched hlinks error).bind fun error₁ error₂ herror => .pure ?_
        cases herror
        exact .value (.failure error₁)
      | value hnext =>
        exact (hnext.pass hM hlinks).bind fun e e' he => .pure (.value he)
    · simp only [hr, ↓reduceDIte]
      exact .pure (.fault _)

theorem Effect.Watched.resume (hM : M.Watched C M') {e : Effect S} {e' : Effect S.spied}
    (h : e.Watched C e') (r : S.ResultType) (result : S.Result r) :
    Spied C (OrFault (Effect.Watched C)) (e.resume M r result) (e'.resume M' r result) := by
  cases h with
  | success value => exact .pure (.fault _)
  | failure error => exact .pure (.fault _)
  | command hc => exact hc.resume hM r result

/-- The same handling.  Functions may be wrapped, also those of an effect that is compared with. -/
inductive Handling.Watched (C : Counter → Prop) : Handling S → Handling S.spied → Prop where
  | andThen {step : Step S} {step' : Step S.spied} (h : step.Watched C step') :
      Watched C (.andThen step) (.andThen step')
  | map {f : S.Value → Action S S.Value} {f' : S.Value → Action S.spied S.Value}
      (h : Tracked C f f') : Watched C (.map f) (.map f')
  | ensure {holds : S.Value → Action S Bool} {holds' : S.Value → Action S.spied Bool}
      {error : Unit → Action S S.Error} {error' : Unit → Action S.spied S.Error}
      (hholds : Tracked C holds holds') (herror : Tracked C error error') :
      Watched C (.ensure holds (error ())) (.ensure holds' (error' ()))
  | mapErr {f : S.Error → Action S S.Error} {f' : S.Error → Action S.spied S.Error}
      (h : Tracked C f f') : Watched C (.mapErr f) (.mapErr f')
  | pipeline {steps : List (Step S)} {steps' : List (Step S.spied)}
      (h : Step.WatchedAll C steps steps') : Watched C (.pipeline steps) (.pipeline steps')
  | equals {other : Effect S} {other' : Effect S.spied} (h : other.Watched C other') :
      Watched C (.equals other) (.equals other')
  | label : Watched C .label .label
  | shown (value : S.Value → Shown) (error : S.Error → Shown) :
      Watched C (.shown value error) (.shown value error)
  | outcome : Watched C .outcome .outcome
  | resume (r : S.ResultType) (result : S.Result r) :
      Watched C (.resume r result) (.resume r result)

namespace Effect.Watched

variable {e : Effect S} {e' : Effect S.spied}

theorem label?_eq (h : e.Watched C e') : e.label? = e'.label? := by
  cases h with
  | success value => rfl
  | failure error => rfl
  | command hc =>
    cases hc
    rfl

theorem outcome?_eq (h : e.Watched C e') : e.outcome? = e'.outcome? := by
  cases h <;> rfl

theorem shown_eq (h : e.Watched C e') (value : S.Value → Shown) (error : S.Error → Shown) :
    e.shown value error = Effect.shown (S := S.spied) value error e' := by
  cases h with
  | success _ => rfl
  | failure _ => rfl
  | command hc =>
    cases hc
    rfl

theorem beq_eq [BEq S.Value] [BEq S.Error] (h : e.Watched C e') {other : Effect S}
    {other' : Effect S.spied} (hother : other.Watched C other') :
    (e == other) = (e' == other') := by
  cases h with
  | success value => cases hother <;> rfl
  | failure error => cases hother <;> rfl
  | command hc =>
    cases hother with
    | success value => rfl
    | failure error => rfl
    | command hc' =>
      cases hc
      cases hc'
      rfl

end Effect.Watched

section

variable [BEq S.Value] [BEq S.Error]

/-- The same was found out, and some functions of the effect are wrapped. -/
def Effect.AnswersWatched {α : Type} (C : Counter → Prop) (x : α × Effect S)
    (y : α × Effect S.spied) : Prop :=
  x.1 = y.1 ∧ x.2.Watched C y.2

theorem Handling.Watched.act (hM : M.Watched C M') {h : Handling S} {h' : Handling S.spied}
    (hh : h.Watched C h') {e : Effect S} {e' : Effect S.spied} (he : e.Watched C e') :
    Spied C (Effect.AnswersWatched C) (h.act M e) (h'.act M' e') := by
  cases hh with
  | andThen hstep =>
    exact (he.andThen hstep (hstep.run hM)).bind fun _ _ hnext => .pure ⟨rfl, hnext⟩
  | map hf =>
    have hstep : Step.Watched C (.map _) (.map _) := .map hf
    exact (he.andThen hstep (hstep.run hM)).bind fun _ _ hnext => .pure ⟨rfl, hnext⟩
  | ensure hholds herror =>
    have hstep := Step.Watched.ensure hholds herror
    exact (he.andThen hstep (hstep.run hM)).bind fun _ _ hnext => .pure ⟨rfl, hnext⟩
  | mapErr hf =>
    exact (he.mapErr hf).bind fun _ _ hnext => .pure ⟨rfl, hnext⟩
  | pipeline hsteps =>
    exact (hsteps.run hM he).bind fun _ _ hnext => .pure ⟨rfl, hnext⟩
  | equals hother =>
    exact .pure ⟨congrArg Answer.equal (he.beq_eq hother), he⟩
  | label =>
    exact .pure ⟨congrArg Answer.label he.label?_eq, he⟩
  | shown value error =>
    exact .pure ⟨congrArg Answer.shown (he.shown_eq value error), he⟩
  | outcome =>
    exact .pure ⟨congrArg Answer.outcome he.outcome?_eq, he⟩
  | resume r result =>
    refine (he.resume hM r result).bind fun _ _ hanswer => ?_
    cases hanswer with
    | fault reason => exact .pure ⟨rfl, he⟩
    | value hnext => exact .pure ⟨rfl, hnext⟩

/-- Whatever is done with an effect, the same is found out where functions are wrapped. -/
theorem Effect.Watched.handle (hM : M.Watched C M') {hs : List (Handling S)}
    {hs' : List (Handling S.spied)} (hhs : List.Forall₂ (Handling.Watched C) hs hs')
    {e : Effect S} {e' : Effect S.spied} (he : e.Watched C e') :
    Spied C (Effect.AnswersWatched C) (e.handle M hs) (e'.handle M' hs') := by
  induction hhs generalizing e e' with
  | nil =>
    exact .pure ⟨rfl, he⟩
  | cons hh _ ih =>
    refine (hh.act hM he).bind fun _ _ hfirst => ?_
    refine (ih hfirst.2).bind fun _ _ hrest => ?_
    exact .pure ⟨congrArg₂ List.cons hfirst.1 hrest.1, hrest.2⟩

end

/-! ## Runs -/

/-- Where one command leads to, with wrapped functions in the effect. -/
inductive Advance.Watched (C : Counter → Prop) : Advance S → Advance S.spied → Prop where
  | next {e : Effect S} {e' : Effect S.spied} (h : e.Watched C e') :
      Watched C (.next e) (.next e')
  | fault (phase : Phase) (error : S.Error) : Watched C (.fault phase error) (.fault phase error)

theorem Command.Watched.advance (hM : M.Watched C M') {c : Command S} {c' : Command S.spied}
    (h : c.Watched C c') : Spied C (Advance.Watched C) (c.advance M) (c'.advance M') := by
  cases h with
  | @intro label r operation operation' hoperation k links links' hlinks =>
    unfold Command.advance
    simp only [passError_ofList]
    -- Both operations answer alike, so the two sides fault in the same phase or not at all.
    refine (hoperation.spied ()).bind fun answer answer' hanswer => ?_
    cases hanswer
    cases answer with
    | error error =>
      refine (passErrorAlong_watched hlinks error).bind fun error₁ error₂ herror => .pure ?_
      cases herror
      exact .fault .operation error₁
    | ok result =>
      refine (k.apply_watched hM result).bind fun outcome outcome' houtcome => ?_
      cases houtcome with
      | fault error =>
        refine (passErrorAlong_watched hlinks error).bind fun error₁ error₂ herror => .pure ?_
        cases herror
        exact .fault .continuation error₁
      | value hnext =>
        exact (hnext.pass hM hlinks).bind fun e e' he => .pure (.next he)

/-- The same end of a run. -/
def Finished.spied (f : Finished S) : Finished S.spied := ⟨f.result, f.trace⟩

/-- The interpreter of wrapped functions, whose events go where they went. -/
def Interpreter.spied (I : Interpreter S) (M' : Meaning S.spied) : Interpreter S.spied where
  meaning := M'
  observe event := keep (I.observe event)

namespace Interpreter

variable {I : Interpreter S}

theorem runFor_spied (hM : I.meaning.Watched C M') (span : Option String) (limit : Nat)
    {e : Effect S} {e' : Effect S.spied} (he : e.Watched C e') (trace : Option Trace) :
    Spied C (fun f f' => f' = f.map Finished.spied) (I.runFor span limit e trace)
      ((I.spied M').runFor span limit e' trace) := by
  -- What comes of a command is again watched, so the rest of the run is covered by the hypothesis
  -- for any effect with any trace.
  induction limit generalizing e e' trace with
  | zero =>
    cases he with
    | success value => exact .pure rfl
    | failure error => exact .pure rfl
    | command hc => exact .pure rfl
  | succ limit ih =>
    cases he with
    | success value => exact .pure rfl
    | failure error => exact .pure rfl
    | @command c c' hc =>
      have hlabel : c'.label = c.label := by
        cases hc
        rfl
      rw [runFor, runFor, hlabel]
      refine (Spied.keep _).bind fun _ _ _ => (hc.advance hM).bind fun a a' ha => ?_
      cases ha with
      | next he =>
        exact ih he _
      | fault phase error =>
        exact (Spied.keep _).bind fun _ _ _ => .pure rfl

/-- A run comes to the same result and the same record where functions are wrapped. -/
theorem runRecorded_spied (hM : I.meaning.Watched C M') (limit : Nat) {e : Effect S}
    {e' : Effect S.spied} (he : e.Watched C e') :
    Spied C Eq (I.runRecorded limit e) ((I.spied M').runRecorded limit e') := by
  refine (runFor_spied hM none limit he (some .empty)).bind fun f f' hf => .pure ?_
  cases hf
  cases f <;> rfl

end Interpreter

end Deferred
