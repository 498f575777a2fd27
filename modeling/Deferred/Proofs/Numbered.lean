import Deferred.Proofs.Handling

/-!
# Numbered — operations that note when they are invoked

A function may look at the world it is called in, but no function says which operations were
invoked.  To say it, every effect that a function returns is given a number of its own, and its
operation writes the number into a ledger beside the world before it does what it did before.

* `Ledger` — how many numbers were given, and those that were written down;
* `Effect.numbered`, `Meaning.numbered`, `Interpreter.numbered` — the same effects, functions and
  runs with such operations;
* `Tracks` — a computation and one beside a ledger go the same way;
* `Effect.Numbered` — an effect and the same effect with a number, which is none of those that were
  written down;
* `Step.tracks_run`, `Command.tracks_resume` — new effects get new numbers;
* `Effect.tracks_handle` — what is done with an effect short of a run writes nothing down.
-/

namespace Deferred

variable {S : Signature}

/-! ## Ledgers -/

/-- How many numbers were given, and those whose operations were invoked, in order. -/
structure Ledger where
  given : Nat
  invoked : List Nat

/-- The number zero was given to one effect, and nothing was invoked. -/
def Ledger.start : Ledger := ⟨1, []⟩

/-- The same family of effects in a world with a ledger beside it. -/
abbrev Signature.numbered (S : Signature) : Signature where
  World := S.World × Ledger
  Value := S.Value
  Error := S.Error
  ResultType := S.ResultType
  Result := S.Result
  typeName := S.typeName
  Fn := S.Fn
  Cont := S.Cont
  TryCont := S.TryCont

namespace Ledger

/-- What a computation did before, with the ledger left as it is. -/
def keep {α : Type} (x : Action S α) : Action S.numbered α :=
  fun s => ((x s.1).1, ((x s.1).2, s.2))

/-- A number that was not given before. -/
def fresh : Action S.numbered Nat :=
  fun s => (s.2.given, (s.1, { s.2 with given := s.2.given + 1 }))

/-- Write down that the operation of a number is invoked. -/
def note (n : Nat) : Action S.numbered Unit :=
  fun s => ((), (s.1, { s.2 with invoked := s.2.invoked ++ [n] }))

end Ledger

open Ledger

/-! ## Effects with numbers -/

mutual

def Step.numbered : Step S → Step S.numbered
  | .call f => .call f
  | .map f => .map fun value => keep (f value)
  | .ensure holds error => .ensure (fun value => keep (holds value)) (keep error)
  | .andThen first next => .andThen first.numbered next.numbered
  | .mapErr step f => .mapErr step.numbered fun error => keep (f error)
  | .after before step => .after (keep before) step.numbered
  | .pipeline steps => .pipeline (Step.numberedAll steps)

def Step.numberedAll : List (Step S) → List (Step S.numbered)
  | [] => []
  | step :: rest => step.numbered :: Step.numberedAll rest

end

def Link.numbered : Link S → Link S.numbered
  | .onSuccess step => .onSuccess step.numbered
  | .onError f => .onError fun error => keep (f error)

def Continuation.numbered {r : S.ResultType} : Continuation S r → Continuation S.numbered r
  | .total k => .total k
  | .fallible k => .fallible k

def Command.numbered (n : Nat) (c : Command S) : Command S.numbered where
  label := c.label
  request :=
    { result := c.request.result
      operation := do note n; keep c.request.operation
      continuation := c.request.continuation.numbered }
  queue := .ofList (c.queue.toList.map Link.numbered)

/-- The effect whose operation, if it has one, has a number. -/
def Effect.numbered (n : Nat) : Effect S → Effect S.numbered
  | .success value => .success value
  | .failure error => .failure error
  | .command c => .command (c.numbered n)

/-- Give an effect a number of its own. -/
def Effect.register (e : Effect S) : Action S.numbered (Effect S.numbered) := do
  return e.numbered (← fresh)

/-- Whatever the functions of the names return is a new effect. -/
def Meaning.numbered (M : Meaning S) : Meaning S.numbered where
  call f value := do (← keep (M.call f value)).register
  resume k result := do (← keep (M.resume k result)).register
  tryResume k result := do
    match ← keep (M.tryResume k result) with
    | .ok e => return .ok (← e.register)
    | .error error => return .error error

def Pipeline.numbered (p : Pipeline S) : Pipeline S.numbered :=
  .ofList (Step.numberedAll p.toList)

/-- The same handling.  An effect that is compared with notes its operation as well. -/
def Handling.numbered : Handling S → Handling S.numbered
  | .andThen step => .andThen step.numbered
  | .map f => .map fun value => keep (f value)
  | .ensure holds error => .ensure (fun value => keep (holds value)) (keep error)
  | .mapErr f => .mapErr fun error => keep (f error)
  | .pipeline rest => .pipeline (Step.numberedAll rest)
  | .equals other => .equals (other.numbered 0)
  | .label => .label
  | .shown value error => .shown value error
  | .outcome => .outcome
  | .resume r result => .resume r result

def Interpreter.numbered (I : Interpreter S) : Interpreter S.numbered where
  meaning := I.meaning.numbered
  observe event := keep (I.observe event)

def Finished.numbered (f : Finished S) : Finished S.numbered := ⟨f.result, f.trace⟩

/-! ## Computations beside a ledger -/

/-- Beside a ledger that satisfies `P` the second computation leaves the world of the first one
behind, and both values are related by `Q` along with the ledger that is left. -/
def Tracks {α β : Type} (P : Ledger → Prop) (Q : α → β → Ledger → Prop) (x : Action S α)
    (x' : Action S.numbered β) : Prop :=
  ∀ w ledger, P ledger → (x' (w, ledger)).2.1 = (x w).2 ∧
    Q (x w).1 (x' (w, ledger)).1 (x' (w, ledger)).2.2

namespace Tracks

variable {α β γ δ : Type} {P : Ledger → Prop} {Q : α → β → Ledger → Prop}
  {R : γ → δ → Ledger → Prop}

theorem pure {a : α} {b : β} (h : ∀ ledger, P ledger → Q a b ledger) :
    Tracks (S := S) P Q (Pure.pure a) (Pure.pure b) :=
  fun _ ledger hP => ⟨rfl, h ledger hP⟩

theorem bind {x : Action S α} {x' : Action S.numbered β} {f : α → Action S γ}
    {f' : β → Action S.numbered δ} (hx : Tracks P Q x x')
    (hf : ∀ a b, Tracks (Q a b) R (f a) (f' b)) : Tracks P R (x >>= f) (x' >>= f') := by
  intro w ledger hP
  rcases hx w ledger hP with ⟨hworld, hvalue⟩
  have hrest := hf _ _ (x w).2 _ hvalue
  rw [← hworld] at hrest
  rw [Action.bind_apply, Action.bind_apply, ← hworld]
  exact hrest

theorem map {x : Action S α} {x' : Action S.numbered β} {f : α → γ} {f' : β → δ}
    (hx : Tracks P Q x x') (h : ∀ a b ledger, Q a b ledger → R (f a) (f' b) ledger) :
    Tracks P R (f <$> x) (f' <$> x') :=
  fun w ledger hP => ⟨(hx w ledger hP).1, h _ _ _ (hx w ledger hP).2⟩

/-- A computation that leaves the ledger as it is, and one that goes on after it. -/
theorem keep_bind (x : Action S α) {f : α → Action S γ} {f' : α → Action S.numbered δ}
    (hf : ∀ a, Tracks P R (f a) (f' a)) : Tracks P R (x >>= f) (keep x >>= f') :=
  fun w ledger hP => hf (x w).1 (x w).2 ledger hP

end Tracks

/-! ## What the numbers say -/

/-- The numbers below `base` were given, and exactly those in `noted` were written down. -/
structure Ledger.Stands (base : Nat) (noted : List Nat) (ledger : Ledger) : Prop where
  given : base ≤ ledger.given
  invoked : ledger.invoked = noted

/-- An effect, and the same effect with a number.  The number is not below `base`, so its operation
is none of those that were invoked before. -/
inductive Effect.Numbered (base : Nat) (noted : List Nat) :
    Effect S → Effect S.numbered → Ledger → Prop where
  | success (value : S.Value) {ledger : Ledger} (h : ledger.Stands base noted) :
      Numbered base noted (.success value) (.success value) ledger
  | failure (error : S.Error) {ledger : Ledger} (h : ledger.Stands base noted) :
      Numbered base noted (.failure error) (.failure error) ledger
  | command (c : Command S) {n : Nat} {ledger : Ledger} (h : ledger.Stands base noted)
      (hbase : base ≤ n) (hgiven : n < ledger.given) :
      Numbered base noted (.command c) (.command (c.numbered n)) ledger

/-- The same error in a ledger that satisfies `P`, or effects that are the same up to a number. -/
inductive Effect.Attempted {ε : Type} (P : Ledger → Prop) (base : Nat) (noted : List Nat) :
    Except ε (Effect S) → Except ε (Effect S.numbered) → Ledger → Prop where
  | fault (error : ε) {ledger : Ledger} (h : P ledger) :
      Attempted P base noted (.error error) (.error error) ledger
  | value {e : Effect S} {e' : Effect S.numbered} {ledger : Ledger}
      (h : e.Numbered base noted e' ledger) : Attempted P base noted (.ok e) (.ok e') ledger

section

variable {α β : Type} {base : Nat} {noted : List Nat}

theorem Effect.tracks_register (e : Effect S) :
    Tracks (Stands base noted) (Effect.Numbered base noted) (pure e) e.register := by
  intro w ledger h
  -- The next number is given, so those below `base` still are.
  have hnext : Stands base noted { ledger with given := ledger.given + 1 } :=
    ⟨Nat.le_succ_of_le h.given, h.invoked⟩
  refine ⟨rfl, ?_⟩
  cases e with
  | success value =>
    exact .success value hnext
  | failure error =>
    exact .failure error hnext
  | command c =>
    exact .command c hnext h.given (Nat.lt_succ_self _)

/-- Whatever a function returns is given a number that no effect has had before. -/
theorem Effect.tracks_returned (x : Action S (Effect S)) :
    Tracks (Stands base noted) (Effect.Numbered base noted) x
      (keep x >>= Effect.register) := by
  have hx : Tracks (Stands base noted) (Effect.Numbered base noted) (x >>= pure)
      (keep x >>= Effect.register) := .keep_bind x Effect.tracks_register
  rwa [bind_pure] at hx

theorem Tracks.note_bind {n : Nat} {R : α → β → Ledger → Prop} {x : Action S α}
    {x' : Action S.numbered β} (hx : Tracks (Stands base (noted ++ [n])) R x x') :
    Tracks (Stands base noted) R x (note n >>= fun _ => x') :=
  fun w ledger h =>
    hx w { ledger with invoked := ledger.invoked ++ [n] } ⟨h.given, by rw [h.invoked]⟩

/-! ## Chaining -/

theorem Command.numbered_push (n : Nat) (c : Command S) (l : Link S) :
    (c.push l).numbered n = (c.numbered n).push l.numbered := by
  have hqueue : Deque.ofList ((c.push l).queue.toList.map Link.numbered) =
      (Deque.ofList (c.queue.toList.map Link.numbered)).pushBack l.numbered :=
    Deque.ext (by simp)
  rw [numbered, hqueue]
  rfl

theorem passErrorAlong_tracks (error : S.Error) (links : List (Link S)) :
    Tracks (Stands base noted)
      (fun error error' ledger => error' = error ∧ Stands base noted ledger)
      (passErrorAlong error links)
      (passErrorAlong (S := S.numbered) error (links.map Link.numbered)) := by
  induction links generalizing error with
  | nil =>
    exact .pure fun _ h => ⟨rfl, h⟩
  | cons l rest ih =>
    cases l with
    | onSuccess step =>
      exact ih error
    | onError f =>
      exact .keep_bind (f error) ih

theorem passError_tracks (error : S.Error) (queue : Deque (Link S)) :
    Tracks (Stands base noted)
      (fun error error' ledger => error' = error ∧ Stands base noted ledger)
      (passError error queue)
      (passError (S := S.numbered) error (.ofList (queue.toList.map Link.numbered))) := by
  rw [passError_ofList]
  exact passErrorAlong_tracks error queue.toList

namespace Effect.Numbered

variable {e : Effect S} {e' : Effect S.numbered}

theorem stands {ledger : Ledger} (h : e.Numbered base noted e' ledger) :
    ledger.Stands base noted := by
  cases h <;> assumption

/-- A queue that has grown leaves the number of a command as it is. -/
theorem push {c : Command S} {n : Nat} {ledger : Ledger} (h : ledger.Stands base noted)
    (hbase : base ≤ n) (hgiven : n < ledger.given) (l : Link S) :
    (Effect.command (c.push l)).Numbered base noted (.command ((c.numbered n).push l.numbered))
      ledger := by
  rw [← Command.numbered_push]
  exact .command (c.push l) h hbase hgiven

theorem mapErr (f : S.Error → Action S S.Error) :
    Tracks (e.Numbered base noted e') (Effect.Numbered base noted) (e.mapErr f)
      (e'.mapErr fun error => keep (f error)) := by
  intro w ledger h
  cases h with
  | success value h =>
    exact ⟨rfl, .success value h⟩
  | failure error h =>
    exact ⟨rfl, .failure _ h⟩
  | command c h hbase hgiven =>
    exact ⟨rfl, .push h hbase hgiven (.onError f)⟩

theorem andThen {M : Meaning S} {step : Step S}
    (hrun : ∀ value, Tracks (Stands base noted) (Effect.Numbered base noted) (step.run M value)
      (step.numbered.run M.numbered value)) :
    Tracks (e.Numbered base noted e') (Effect.Numbered base noted) (e.andThen M step)
      (e'.andThen M.numbered step.numbered) := by
  intro w ledger h
  cases h with
  | success value h =>
    exact hrun value w ledger h
  | failure error h =>
    exact ⟨rfl, .failure error h⟩
  | command c h hbase hgiven =>
    exact ⟨rfl, .push h hbase hgiven (.onSuccess step)⟩

end Effect.Numbered

mutual

/-- A step puts effects together and gives those that are new their numbers, and it writes nothing
down. -/
theorem Step.tracks_run (M : Meaning S) :
    ∀ (step : Step S) (value : S.Value),
      Tracks (Stands base noted) (Effect.Numbered base noted) (step.run M value)
        (step.numbered.run M.numbered value)
  | .call f, value => by
    rw [Step.numbered, Step.run, Step.run]
    exact Effect.tracks_returned (M.call f value)
  | .map f, value => by
    rw [Step.numbered, Step.run, Step.run]
    exact .keep_bind (f value) fun value' => .pure fun _ h => .success value' h
  | .ensure holds error, value => by
    rw [Step.numbered, Step.run, Step.run]
    refine .keep_bind (holds value) fun b => ?_
    cases b with
    | true =>
      exact .pure fun _ h => .success value h
    | false =>
      exact .keep_bind error fun error' => .pure fun _ h => .failure error' h
  | .andThen first next, value => by
    rw [Step.numbered, Step.run_andThen, Step.run_andThen]
    exact (Step.tracks_run M first value).bind fun _ _ =>
      Effect.Numbered.andThen (Step.tracks_run M next)
  | .mapErr step f, value => by
    rw [Step.numbered, Step.run_mapErr, Step.run_mapErr]
    exact (Step.tracks_run M step value).bind fun _ _ => Effect.Numbered.mapErr f
  | .after before step, value => by
    rw [Step.numbered, Step.run, Step.run]
    exact .keep_bind before fun _ => Step.tracks_run M step value
  | .pipeline steps, value => by
    rw [Step.numbered, Step.run, Step.run]
    intro w ledger h
    exact Step.tracks_runAll M steps _ _ w ledger (.success value h)

theorem Step.tracks_runAll (M : Meaning S) :
    ∀ (steps : List (Step S)) (e : Effect S) (e' : Effect S.numbered),
      Tracks (e.Numbered base noted e') (Effect.Numbered base noted) (Step.runAll M steps e)
        (Step.runAll M.numbered (Step.numberedAll steps) e')
  | [], _, _ => .pure fun _ h => h
  | step :: rest, e, e' => by
    intro w ledger h
    rw [Step.numberedAll]
    cases h with
    | success value h =>
      have hstep := (Step.tracks_run M step value).bind fun e e' => Step.tracks_runAll M rest e e'
      exact hstep w ledger h
    | failure error h =>
      exact ⟨rfl, .failure error h⟩
    | command c h hbase hgiven =>
      exact Step.tracks_runAll M rest _ _ w ledger (.push h hbase hgiven (.onSuccess step))

end

theorem Effect.tracks_link (M : Meaning S) (l : Link S) (e : Effect S) (e' : Effect S.numbered) :
    Tracks (e.Numbered base noted e') (Effect.Numbered base noted) (e.link M l)
      (e'.link M.numbered l.numbered) := by
  cases l with
  | onSuccess step =>
    exact Effect.Numbered.andThen (Step.tracks_run M step)
  | onError f =>
    exact Effect.Numbered.mapErr f

theorem Effect.tracks_pass (M : Meaning S) (queue : Deque (Link S)) (e : Effect S)
    (e' : Effect S.numbered) :
    Tracks (e.Numbered base noted e') (Effect.Numbered base noted) (e.pass M queue)
      (e'.pass M.numbered (.ofList (queue.toList.map Link.numbered))) := by
  rw [← queue.ofList_toList, Deque.toList_ofList]
  induction queue.toList generalizing e e' with
  | nil =>
    rw [List.map_nil, pass_nil, pass_nil]
    exact .pure fun _ h => h
  | cons l rest ih =>
    rw [List.map_cons, pass_cons, pass_cons]
    exact (Effect.tracks_link M l e e').bind ih

/-! ## Resuming -/

theorem Continuation.tracks_apply (M : Meaning S) {r : S.ResultType} (k : Continuation S r)
    (result : S.Result r) :
    Tracks (Stands base noted) (Effect.Attempted (Stands base noted) base noted)
      (k.apply M result) (k.numbered.apply M.numbered result) := by
  cases k with
  | total k =>
    exact (Effect.tracks_returned (M.resume k result)).map fun _ _ _ h => .value h
  | fallible k =>
    have htry : Tracks (Stands base noted) (Effect.Attempted (Stands base noted) base noted)
        (M.tryResume k result >>= pure) (M.numbered.tryResume k result) := by
      refine .keep_bind (M.tryResume k result) fun outcome => ?_
      cases outcome with
      | ok e =>
        exact e.tracks_register.map fun _ _ _ h => .value h
      | error error =>
        exact .pure fun _ h => .fault error h
    rwa [bind_pure] at htry

/-- What a result leads to behind the continuation of a command, whether it is supplied by hand or
comes from the operation. -/
theorem Command.tracks_resume (M : Meaning S) (c : Command S) (n : Nat) (r : S.ResultType)
    (result : S.Result r) {P : Ledger → Prop} (hP : ∀ ledger, P ledger → Stands base noted ledger) :
    Tracks P (Effect.Attempted P base noted) (c.resume M r result)
      ((c.numbered n).resume M.numbered r result) := by
  rcases c with ⟨label, ⟨r', operation, k⟩, queue⟩
  unfold Command.resume
  -- A refusal comes before anything is called, so whatever holds of the ledger still does.
  by_cases hr : r = r'
  · subst hr
    simp only [Command.numbered, ↓reduceDIte]
    intro w ledger h
    refine ((Continuation.tracks_apply M k result).bind fun outcome outcome' => ?_) w ledger
      (hP ledger h)
    intro w ledger h
    cases h with
    | fault error h =>
      refine ((passError_tracks error queue).bind fun error error' => ?_) w ledger h
      exact .pure fun _ h => h.1 ▸ .value (.failure _ h.2)
    | @value e e' _ h =>
      exact ((Effect.tracks_pass M queue e e').map fun _ _ _ h => .value h) w ledger h
  · simp only [Command.numbered, hr, ↓reduceDIte]
    exact .pure fun _ h => .fault _ h

/-! ## Handlings -/

section

variable [BEq S.Value] [BEq S.Error]

/-- The same answer, and effects that are the same up to a number. -/
def Effect.NumberedAnswer (base : Nat) (noted : List Nat) {α : Type} (x : α × Effect S)
    (x' : α × Effect S.numbered) (ledger : Ledger) : Prop :=
  x'.1 = x.1 ∧ x.2.Numbered base noted x'.2 ledger

theorem Effect.Numbered.beq_eq {e : Effect S} {e' : Effect S.numbered} {ledger : Ledger}
    (h : e.Numbered base noted e' ledger) (other : Effect S) :
    (e' == other.numbered 0) = (e == other) := by
  cases h <;> cases other <;> rfl

/-- Nothing that is done with an effect short of a run writes anything down. -/
theorem Handling.tracks_act (M : Meaning S) (h : Handling S) (e : Effect S)
    (e' : Effect S.numbered) :
    Tracks (e.Numbered base noted e') (Effect.NumberedAnswer base noted) (h.act M e)
      (h.numbered.act M.numbered e') := by
  cases h with
  | andThen step =>
    exact (Effect.Numbered.andThen (Step.tracks_run M step)).map fun _ _ _ hnext => ⟨rfl, hnext⟩
  | map f =>
    have hrun : ∀ value, Tracks (Stands base noted) (Effect.Numbered base noted)
        ((Step.map f).run M value) ((Step.map f).numbered.run M.numbered value) :=
      Step.tracks_run M (.map f)
    exact (Effect.Numbered.andThen hrun).map fun _ _ _ hnext => ⟨rfl, hnext⟩
  | ensure holds error =>
    have hrun : ∀ value, Tracks (Stands base noted) (Effect.Numbered base noted)
        ((Step.ensure holds error).run M value)
        ((Step.ensure holds error).numbered.run M.numbered value) :=
      Step.tracks_run M (.ensure holds error)
    exact (Effect.Numbered.andThen hrun).map fun _ _ _ hnext => ⟨rfl, hnext⟩
  | mapErr f =>
    exact (Effect.Numbered.mapErr f).map fun _ _ _ hnext => ⟨rfl, hnext⟩
  | pipeline rest =>
    exact (Step.tracks_runAll M rest e e').map fun _ _ _ hnext => ⟨rfl, hnext⟩
  | equals other =>
    exact .pure fun _ he => ⟨congrArg Answer.equal (he.beq_eq other), he⟩
  | label =>
    refine .pure fun _ he => ⟨?_, he⟩
    cases he <;> rfl
  | shown value error =>
    refine .pure fun _ he => ⟨?_, he⟩
    cases he <;> rfl
  | outcome =>
    refine .pure fun _ he => ⟨?_, he⟩
    cases he <;> rfl
  | resume r result =>
    -- After a refusal the effect is at hand with the number that it had.
    have hresume : Tracks (e.Numbered base noted e')
        (Effect.Attempted (e.Numbered base noted e') base noted) (e.resume M r result)
        (e'.resume M.numbered r result) := by
      intro w ledger he
      cases he with
      | success value h =>
        exact ⟨rfl, .fault _ (.success value h)⟩
      | failure error h =>
        exact ⟨rfl, .fault _ (.failure error h)⟩
      | command c h hbase hgiven =>
        exact c.tracks_resume M _ r result (fun _ he => he.stands) w ledger
          (.command c h hbase hgiven)
    refine hresume.bind fun _ _ => ?_
    intro w ledger hanswer
    cases hanswer with
    | fault reason he =>
      exact ⟨rfl, rfl, he⟩
    | value hnext =>
      exact ⟨rfl, rfl, hnext⟩

theorem Effect.tracks_handle (M : Meaning S) (hs : List (Handling S)) (e : Effect S)
    (e' : Effect S.numbered) :
    Tracks (e.Numbered base noted e') (Effect.NumberedAnswer base noted) (e.handle M hs)
      (e'.handle M.numbered (hs.map Handling.numbered)) := by
  induction hs generalizing e e' with
  | nil =>
    exact .pure fun _ he => ⟨rfl, he⟩
  | cons h rest ih =>
    refine (h.tracks_act M e e').bind fun first first' => ?_
    intro w ledger hfirst
    rcases hfirst with ⟨hanswer, hnext⟩
    have hrest : Tracks (first.2.Numbered base noted first'.2) (Effect.NumberedAnswer base noted)
        (first.2.handle M rest >>= fun last => pure (first.1 :: last.1, last.2))
        (first'.2.handle M.numbered (rest.map Handling.numbered) >>= fun last =>
          pure (first'.1 :: last.1, last.2)) := by
      refine (ih first.2 first'.2).bind fun _ _ => .pure fun _ hlast => ⟨?_, hlast.2⟩
      exact congrArg₂ List.cons hanswer hlast.1
    exact hrest w ledger hnext

end

end

end Deferred
