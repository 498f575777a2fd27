import Deferred.Effect.Basic

/-!
# Counter — count how often a step or an operation is called

A counter is a handle; its count is part of the world.  Copies of a handle share one count.

* `Counters` — the counts of all counters that were made;
* `Counter` — a handle, with `create`, `record` and `count`;
* `Counter.track` — a function that is counted on every call;
* `Counter.watch`, `Counter.watchErr` — a step or an error transformation that is counted on
  every use.
-/

namespace Deferred

/-- The counts of all counters, in the order in which they were made.  A count has 64 bits and
starts again at zero behind its largest value. -/
structure Counters where
  counts : Array UInt64 := #[]

/-- A world that counters live in: what is changed there is what is read there afterwards, and
changes one after the other are one change. -/
class Counting (World : Type) where
  counters : World → Counters
  modifyCounters : (Counters → Counters) → World → World
  counters_modify : ∀ f w, counters (modifyCounters f w) = f (counters w)
  modify_modify : ∀ f g w,
    modifyCounters g (modifyCounters f w) = modifyCounters (fun all => g (f all)) w
  modify_id : ∀ w, modifyCounters (fun all => all) w = w

/-- A handle of a counter. -/
structure Counter where
  index : Nat
  deriving DecidableEq

namespace Counter

/-- The count behind a handle. -/
def count (c : Counter) (all : Counters) : UInt64 :=
  all.counts.getD c.index 0

/-- The counts after one more call. -/
def bump (c : Counter) (all : Counters) : Counters :=
  { all with counts := all.counts.modify c.index (· + 1) }

variable {S : Signature} [Counting S.World]

/-- Make a counter that stands at zero. -/
def create : Action S Counter :=
  modifyGet fun world =>
    (⟨(Counting.counters world).counts.size⟩,
      Counting.modifyCounters (fun all => { all with counts := all.counts.push 0 }) world)

/-- Record one call. -/
def record (c : Counter) : Action S Unit :=
  modify (Counting.modifyCounters c.bump)

/-- Count every call of a function. -/
def track {α β : Type} (c : Counter) (f : α → Action S β) : α → Action S β :=
  fun a => do
    c.record
    f a

/-- Count every use of a step. -/
def watch (c : Counter) (step : Step S) : Step S :=
  .after c.record step

/-- Count every use of an error transformation. -/
def watchErr (c : Counter) (f : S.Error → Action S S.Error) : S.Error → Action S S.Error :=
  fun error => do
    c.record
    f error

end Counter

end Deferred
