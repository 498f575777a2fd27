import Deferred.Effect.Resume
import Deferred.Interpreter
import Deferred.Typed.Universe

/-!
# Effect — effects whose values and errors have types

`Typed.Effect S v e` is an effect that succeeds with values of type `v` and fails with errors of
type `e`.  Underneath it is an effect over boxed values; the types are kept by the functions of
this file alone.  A link opens the box it is handed, whatever comes out of a queue is opened again,
and a box that holds another type than asked for is noted in `Checked.mismatches`.

* `Typed.Signature` — types, a world, and names of functions with their types;
* `Typed.Effect`, `Typed.Step`, `Typed.Meaning` — effects, steps and meanings with types;
* the constructors and combinators, each with the types that it takes and gives;
* `Typed.Effect.reveal` — the effect that a queue or a pipeline has led to;
* `Typed.Effect.runRecorded` — a run with a typed result.
-/

namespace Deferred.Typed

/-! ## Signatures -/

/-- What a family of typed effects is built over.  A name in `Fn a v e` stands for a function
from `a` to effects of `v` and `e`; `Cont` and `TryCont` are names of continuations, whose first
type is that of the operation's result. -/
structure Signature where
  types : Universe
  World : Type
  Fn : types.Ty → types.Ty → types.Ty → Type
  Cont : types.Ty → types.Ty → types.Ty → Type
  TryCont : types.Ty → types.Ty → types.Ty → Type

/-- A box was opened as one type and held another. -/
structure Mismatch (U : Universe) where
  asked : U.Ty
  found : U.Ty

/-- A world, and the boxes that were opened as the wrong type. -/
structure Checked (S : Signature) where
  world : S.World
  mismatches : List (Mismatch S.types) := []

/-- The name of a step with its types. -/
structure FnName (S : Signature) where
  argument : S.types.Ty
  value : S.types.Ty
  error : S.types.Ty
  name : S.Fn argument value error

/-- The name of a continuation with the types of its effects. -/
structure ContName (S : Signature) (r : S.types.Ty) where
  value : S.types.Ty
  error : S.types.Ty
  name : S.Cont r value error

/-- The name of a fallible continuation with the types of its effects. -/
structure TryContName (S : Signature) (r : S.types.Ty) where
  value : S.types.Ty
  error : S.types.Ty
  name : S.TryCont r value error

/-- The signature underneath: all values and errors are boxed. -/
def Signature.untyped (S : Signature) : Deferred.Signature where
  World := Checked S
  Value := Boxed S.types
  Error := Boxed S.types
  ResultType := S.types.Ty
  Result := S.types.El
  typeName := S.types.name
  Fn := FnName S
  Cont := ContName S
  TryCont := TryContName S

/-- A computation on the world of a typed signature. -/
abbrev Act (S : Signature) := Action S.untyped

variable {S : Signature}

/-- A computation that cannot see which boxes were opened. -/
def lift {α : Type} (act : StateM S.World α) : Act S α :=
  fun (checked : Checked S) =>
    let (a, world) := act checked.world
    (a, { checked with world })

/-- Open a box and go on with its value.  A box of another type is noted, and `other` is the
result. -/
def unbox {α : Type} (b : Boxed S.types) (t : S.types.Ty) (next : S.types.El t → Act S α)
    (other : α) : Act S α :=
  match b.as? t with
  | some x => next x
  | none => do
      modify fun (checked : Checked S) =>
        { checked with mismatches := ⟨t, b.type⟩ :: checked.mismatches }
      return other

@[simp] theorem unbox_mk {α : Type} (t : S.types.Ty) (x : S.types.El t)
    (next : S.types.El t → Act S α) (other : α) : unbox (Boxed.mk t x) t next other = next x := by
  simp [unbox]

/-- A transformation of errors as it is queued: it opens the box, and boxes what it returns. -/
def transform {e e' : S.types.Ty} (f : S.types.El e → StateM S.World (S.types.El e'))
    (b : Boxed S.types) : Act S (Boxed S.types) :=
  unbox b e (fun error => return ⟨e', ← lift (f error)⟩) b

theorem transform_mk {e e' : S.types.Ty} (f : S.types.El e → StateM S.World (S.types.El e'))
    (x : S.types.El e) : transform f (Boxed.mk e x) = do return Boxed.mk e' (← lift (f x)) :=
  unbox_mk ..

/-- Box both sides of a result. -/
def boxResult (v e : S.types.Ty) :
    Except (S.types.El e) (S.types.El v) → Except (Boxed S.types) (Boxed S.types)
  | .ok x => .ok ⟨v, x⟩
  | .error x => .error ⟨e, x⟩

/-- Open the boxed result of a run that has come to an end. -/
def openFinished (v e : S.types.Ty) :
    Option (Except (Boxed S.types) (Boxed S.types) × Trace) →
      Act S (Option (Except (S.types.El e) (S.types.El v) × Trace))
  | none => return none
  | some (.ok b, trace) => unbox b v (fun x => return some (.ok x, trace)) none
  | some (.error b, trace) => unbox b e (fun x => return some (.error x, trace)) none

/-- Look into a boxed result; `none` if the box holds another type. -/
def openResult? (v e : S.types.Ty) :
    Except (Boxed S.types) (Boxed S.types) → Option (Except (S.types.El e) (S.types.El v))
  | .ok b => (b.as? v).map .ok
  | .error b => (b.as? e).map .error

/-! ## Effects and steps -/

/-- An effect of values of type `v` and errors of type `e`. -/
structure Effect (S : Signature) (v e : S.types.Ty) where
  untyped : Deferred.Effect S.untyped

/-- A function from values of type `a` to effects of `v` and `e`. -/
structure Step (S : Signature) (a v e : S.types.Ty) where
  untyped : Deferred.Step S.untyped

/-- The effects that names stand for. -/
@[ext] structure Meaning (S : Signature) where
  call : {a v e : S.types.Ty} → S.Fn a v e → S.types.El a → Act S (Effect S v e)
  resume : {r v e : S.types.Ty} → S.Cont r v e → S.types.El r → Act S (Effect S v e)
  tryResume : {r v e : S.types.Ty} → S.TryCont r v e → S.types.El r →
    Act S (Except (S.types.El e) (Effect S v e))

/-- The meaning underneath. -/
def Meaning.untyped (M : Meaning S) : Deferred.Meaning S.untyped where
  call := fun (f : FnName S) (b : Boxed S.types) =>
    unbox b f.argument (fun x => return (← M.call f.name x).untyped) (.failure b)
  resume := fun {r} (k : ContName S r) (x : S.types.El r) => do
    return (← M.resume k.name x).untyped
  tryResume := fun {r} (k : TryContName S r) (x : S.types.El r) => do
    match ← M.tryResume k.name x with
    | .ok e => return .ok e.untyped
    | .error fault => return .error (Boxed.mk k.error fault)

namespace Step

variable {a v e : S.types.Ty}

/-- The function of a name. -/
def call (f : S.Fn a v e) : Step S a v e :=
  ⟨.call (FnName.mk a v e f)⟩

/-- Transform a value. -/
def map (f : S.types.El a → StateM S.World (S.types.El v)) : Step S a v e :=
  ⟨.map fun (b : Boxed S.types) =>
    unbox b a (fun x => return ⟨v, ← lift (f x)⟩) b⟩

/-- Fail unless the value satisfies a predicate. -/
def ensure (holds : S.types.El a → StateM S.World Bool) (error : StateM S.World (S.types.El e)) :
    Step S a a e :=
  ⟨.ensure (fun (b : Boxed S.types) => unbox b a (fun x => lift (holds x)) false)
    (do return Boxed.mk e (← lift error))⟩

/-! A step that is handed a box of its own type does its work on what is in it. -/

theorem run_call (M : Meaning S) (f : S.Fn a v e) (x : S.types.El a) :
    (call f).untyped.run M.untyped (Boxed.mk a x) = Effect.untyped <$> M.call f x := by
  simp only [call, Deferred.Step.run]
  exact unbox_mk ..

theorem run_map (M : Meaning S) (f : S.types.El a → StateM S.World (S.types.El v))
    (x : S.types.El a) :
    (map f : Step S a v e).untyped.run M.untyped (Boxed.mk a x) =
      do return .success (Boxed.mk v (← lift (f x))) := by
  have hopen : unbox (Boxed.mk a x) a (fun x => do return Boxed.mk v (← lift (f x))) (Boxed.mk a x) =
      do return Boxed.mk v (← lift (f x)) := unbox_mk ..
  simp only [map, Deferred.Step.run]
  exact congrArg (fun act => Deferred.Effect.success (S := S.untyped) <$> act) hopen

theorem run_ensure (M : Meaning S) (holds : S.types.El a → StateM S.World Bool)
    (error : StateM S.World (S.types.El e)) (x : S.types.El a) :
    (ensure holds error).untyped.run M.untyped (Boxed.mk a x) = do
      if ← lift (holds x) then return .success (Boxed.mk a x)
      else return .failure (Boxed.mk e (← lift error)) := by
  simp only [ensure, Deferred.Step.run, unbox_mk]
  rfl

end Step

namespace Effect

variable {v w e e' r : S.types.Ty}

/-! ## Making effects -/

/-- A success. -/
def success (x : S.types.El v) : Effect S v e :=
  ⟨.success (Boxed.mk v x)⟩

/-- A failure. -/
def failure (x : S.types.El e) : Effect S v e :=
  ⟨.failure (Boxed.mk e x)⟩

/-- The outcome that a result stands for. -/
def ofExcept : Except (S.types.El e) (S.types.El v) → Effect S v e
  | .ok x => success x
  | .error x => failure x

/-- An operation, and a continuation of its result that cannot fault. -/
def deferred (label : Label) (operation : StateM S.World (Except (S.types.El e) (S.types.El r)))
    (k : S.Cont r v e) : Effect S v e :=
  ⟨Deferred.Effect.deferred (S := S.untyped) label (r := r)
    (return (← lift operation).mapError fun x => Boxed.mk e x) (ContName.mk v e k)⟩

/-- An operation, and a continuation of its result that can fault. -/
def tryDeferred (label : Label)
    (operation : StateM S.World (Except (S.types.El e) (S.types.El r)))
    (k : S.TryCont r v e) : Effect S v e :=
  ⟨Deferred.Effect.tryDeferred (S := S.untyped) label (r := r)
    (return (← lift operation).mapError fun x => Boxed.mk e x) (TryContName.mk v e k)⟩

/-! ## Combinators -/

/-- Run a step on the success value. -/
def andThen (M : Meaning S) (x : Effect S v e) (step : Step S v w e) : Act S (Effect S w e) :=
  return ⟨← x.untyped.andThen M.untyped step.untyped⟩

/-- Transform the success value. -/
def map (M : Meaning S) (x : Effect S v e) (f : S.types.El v → StateM S.World (S.types.El w)) :
    Act S (Effect S w e) :=
  x.andThen M (.map f)

/-- Fail unless the success value satisfies a predicate. -/
def ensure (M : Meaning S) (x : Effect S v e) (holds : S.types.El v → StateM S.World Bool)
    (error : StateM S.World (S.types.El e)) : Act S (Effect S v e) :=
  x.andThen M (.ensure holds error)

/-- Transform the error, also to another type. -/
def mapErr (x : Effect S v e) (f : S.types.El e → StateM S.World (S.types.El e')) :
    Act S (Effect S v e') :=
  return ⟨← x.untyped.mapErr (transform f)⟩

/-- The effect that a queue or a pipeline has led to.  If it is an outcome, its box is opened. -/
def reveal (x : Deferred.Effect S.untyped) : Act S (Effect S v e) :=
  match x with
  | .success (b : Boxed S.types) => unbox b v (fun value => return success value) ⟨x⟩
  | .failure (b : Boxed S.types) => unbox b e (fun error => return failure error) ⟨x⟩
  | .command _ => return ⟨x⟩

/-! ## Looking at an effect and moving it on -/

/-- The label of a pending operation. -/
def label? (x : Effect S v e) : Option Label := x.untyped.label?

/-- The result of an effect that is finished or failed. -/
def outcome? (x : Effect S v e) : Option (Except (S.types.El e) (S.types.El v)) :=
  x.untyped.outcome?.bind (openResult? v e)

/-- The rendered form of an effect; what cannot be opened is left blank. -/
def shown (value : S.types.El v → Shown) (error : S.types.El e → Shown) (x : Effect S v e) :
    Shown :=
  x.untyped.shown
    (fun (b : Boxed S.types) => ((b.as? v).map value).getD (.atom ""))
    (fun (b : Boxed S.types) => ((b.as? e).map error).getD (.atom ""))

/-- Feed a result to a pending operation by hand. -/
def resume (M : Meaning S) (x : Effect S v e) (result : S.types.El r) :
    Act S (Except ResumeError (Effect S v e)) := do
  match ← x.untyped.resume M.untyped r result with
  | .ok next => return .ok (← reveal next)
  | .error refusal => return .error refusal

/-- Drive an effect to its outcome, invoking at most the given number of operations, and keep a
record.  Events are passed over. -/
def runRecorded (M : Meaning S) (limit : Nat) (x : Effect S v e) :
    Act S (Option (Except (S.types.El e) (S.types.El v) × Trace)) := do
  let I : Interpreter S.untyped := { meaning := M.untyped, observe := fun _ => pure () }
  openFinished v e (← I.runRecorded limit x.untyped)

end Effect

end Deferred.Typed
