import Deferred.Effect.Basic

/-!
# Sampling — outcomes for tests of laws

Commands hold functions and cannot be made up, so samples are outcomes only.

* `Signature.outcomes` — a signature without operations and without names;
* `Sample` — a source of numbers that looks random and is the same on every run;
* `Sample.effects` — successes and failures drawn from a source.
-/

namespace Deferred

/-- A signature without operations and without names: its effects are outcomes. -/
def Signature.outcomes (Value Error : Type) : Signature where
  World := Unit
  Value := Value
  Error := Error
  ResultType := Empty
  Result := Empty.elim
  typeName := Empty.elim
  Fn := Empty
  Cont := Empty.elim
  TryCont := Empty.elim

/-- A source of numbers. -/
structure Sample where
  seed : UInt64

namespace Sample

/-- The next source: a linear congruence modulo `2 ^ 64`. -/
def next (s : Sample) : Sample :=
  ⟨s.seed * 6364136223846793005 + 1442695040888963407⟩

/-- The upper half of the seed, which is the better mixed one. -/
def draw (s : Sample) : UInt32 := (s.seed >>> 32).toUInt32

variable {Value Error : Type} (value : UInt32 → Value) (error : UInt32 → Error)

/-- A success or a failure, as likely as each other. -/
def effect (s : Sample) : Effect (Signature.outcomes Value Error) :=
  if s.draw < 0x80000000 then .success (value s.next.draw) else .failure (error s.next.draw)

/-- A number of samples. -/
def effects (s : Sample) : Nat → List (Effect (Signature.outcomes Value Error))
  | 0 => []
  | n + 1 => s.effect value error :: effects s.next.next n

end Sample

end Deferred
