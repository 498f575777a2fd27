import Deferred.Interpreter

/-!
# Runtime — the ways to have an effect run

Runs are futures.  Somebody polls them: a task that awaits them, or a thread that blocks until they
are done.  What is polled is told the span that it is polled in, and reports events there.

* `Future` — a computation that is told the span it is polled in;
* `Runtime` — what blocks on a future, and what enters a span around one;
* `Runtime.Faithful` — all that is relied on of these two;
* `Interpreter.runBlocking`, `Interpreter.runInstrumented` — a run on the current thread, and one
  inside a span;
* `Effect.running`, `Effect.runBlocking` — runs by an interpreter that is made for the occasion;
* `Way` — which of these.
-/

namespace Deferred

variable {S : Signature}

/-! ## Futures -/

/-- A computation that is told the span it is polled in, if there is one. -/
abbrev Future (S : Signature) (α : Type) := Option String → Action S α

/-- What is taken from elsewhere: to poll a future until it is done on the current thread, and to
poll one inside a span. -/
structure Runtime where
  blockOn : {S : Signature} → {α : Type} → Future S α → Future S α
  instrument : {S : Signature} → {α : Type} → String → Future S α → Future S α

/-- What is relied on: blocking does what the future does and returns what it resolves to, and
instrumenting enters the span around the future. -/
structure Runtime.Faithful (R : Runtime) : Prop where
  blockOn : ∀ {S : Signature} {α : Type} (future : Future S α), R.blockOn future = future
  instrument : ∀ {S : Signature} {α : Type} (span : String) (future : Future S α)
    (around : Option String), R.instrument span future around = future (some span)

/-- The runtime that polls a future where it stands. -/
def Runtime.inPlace : Runtime where
  blockOn future := future
  instrument span future := fun _ => future (some span)

theorem Runtime.faithful_inPlace : Runtime.inPlace.Faithful where
  blockOn _ := rfl
  instrument _ _ _ := rfl

/-! ## Runs of an interpreter -/

namespace Interpreter

variable (I : Interpreter S) (R : Runtime) (limit : Nat) (e : Effect S)

/-- Drive an effect to its outcome on the current thread. -/
def runBlocking : Future S (Option (Except S.Error S.Value)) :=
  R.blockOn (I.running limit e)

/-- Drive an effect to its outcome inside a span. -/
def runInstrumented (span : String) : Future S (Option (Except S.Error S.Value)) :=
  R.instrument span (I.running limit e)

end Interpreter

/-! ## Runs of an effect -/

namespace Effect

variable (M : Meaning S) (observe : Event → Action S Unit) (R : Runtime) (limit : Nat)
  (e : Effect S)

/-- Drive an effect to its outcome with an interpreter of its own. -/
def running : Future S (Option (Except S.Error S.Value)) :=
  Interpreter.running ⟨M, observe⟩ limit e

/-- Drive an effect to its outcome on the current thread with an interpreter of its own. -/
def runBlocking : Future S (Option (Except S.Error S.Value)) :=
  Interpreter.runBlocking ⟨M, observe⟩ R limit e

end Effect

/-! ## All of them -/

/-- The ways to have an effect run, for its result. -/
inductive Way where
  | plain
  | recorded
  | blocking
  | own
  | ownBlocking
  | instrumented (span : String)
  deriving DecidableEq

namespace Way

/-- The run of an effect by a way, without its record. -/
def run (R : Runtime) (I : Interpreter S) (limit : Nat) (e : Effect S) :
    Way → Future S (Option (Except S.Error S.Value))
  | .plain => I.running limit e
  | .recorded => fun span => Option.map Prod.fst <$> I.recording limit e span
  | .blocking => I.runBlocking R limit e
  | .own => e.running I.meaning I.observe limit
  | .ownBlocking => e.runBlocking I.meaning I.observe R limit
  | .instrumented span => I.runInstrumented R limit e span

/-- The span that the events of a run lie in. -/
def span (around : Option String) : Way → Option String
  | .instrumented span => some span
  | _ => around

end Way

end Deferred
