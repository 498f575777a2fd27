import Deferred.Proofs.Indistinguishable

/-!
# Bifunctor — transforming values and transforming errors, up to observation

A transformation of values is a link that errors skip, a transformation of errors is a link that
successes skip.  So neither sees what the other one does, and each kind can be put together link
by link.  All laws of this file are one argument: two short blocks of links make the same of every
outcome, and are exchanged at the end of a queue.

* `Effect.foldlM_link` — links that are applied one by one, and the same links as a queue;
* `Interchangeable.map_map` and its siblings — blocks that make the same of every outcome;
* `Interchangeable.alike` — exchanging a block at the end of any effect;
* `Effect.bifunctor_laws` — what follows for `map`, `mapErr` and `andThen`.
-/

namespace Deferred

variable {S : Signature} {M : Meaning S}

/-! ## Links one by one -/

theorem Effect.foldlM_link (M : Meaning S) (links : List (Link S)) (e : Effect S) :
    links.foldlM (Effect.link M) e = e.pass M (.ofList links) := by
  induction links generalizing e with
  | nil =>
    rw [List.foldlM_nil, Effect.pass_nil]
  | cons l rest ih =>
    rw [List.foldlM_cons, Effect.pass_cons]
    exact bind_congr ih

/-! ## Blocks -/

namespace Interchangeable

/-- Two transformations of values, and one that does the work of both. -/
theorem map_map (f g : S.Value → Action S S.Value) :
    Interchangeable M [.onSuccess (.map f), .onSuccess (.map g)]
      [.onSuccess (.map fun value => f value >>= g)] := by
  constructor
  · intro value
    have hfirst : Effect.link M (.success value) (.onSuccess (.map f)) =
        Effect.success <$> f value := by
      simp [Effect.link, Effect.andThen, Step.run]
    rw [Effect.pass_cons, Effect.pass_singleton, hfirst]
    simp [Effect.pass_singleton, Effect.link, Effect.andThen, Step.run]
  · intro error
    rfl

/-- Two transformations of errors, and one that does the work of both. -/
theorem mapErr_mapErr (h k : S.Error → Action S S.Error) :
    Interchangeable M [.onError h, .onError k] [.onError fun error => h error >>= k] := by
  constructor
  · intro value
    simp [Effect.pass_cons, Effect.pass_nil, Effect.link, Effect.mapErr]
  · intro error
    simp

/-- A transformation that leaves every value as it is, and no link. -/
theorem map_pure : Interchangeable M [.onSuccess (.map pure)] [] := by
  constructor
  · intro value
    have hlink : Effect.link M (.success value) (.onSuccess (.map pure)) =
        pure (.success value) := by
      simp [Effect.link, Effect.andThen, Step.run]
    rw [Effect.pass_singleton, Effect.pass_nil, hlink]
  · intro error
    rfl

/-- A transformation that leaves every error as it is, and no link. -/
theorem mapErr_pure : Interchangeable M [.onError pure] [] := by
  constructor
  · intro value
    simp [Effect.pass_cons, Effect.pass_nil, Effect.link, Effect.mapErr]
  · intro error
    simp

/-- A step and a transformation of errors behind it, and the same transformation in front of a
step that takes the errors of its own effect through it. -/
theorem andThen_mapErr (step : Step S) (h : S.Error → Action S S.Error) :
    Interchangeable M [.onSuccess step, .onError h] [.onError h, .onSuccess (.mapErr step h)] := by
  constructor
  · intro value
    -- In front of the step the transformation is skipped: only the step can bring up an error.
    have hskipped : Effect.link M (.success value) (.onError h) = pure (.success value) := rfl
    calc
      (Effect.success value).pass M (.ofList [.onSuccess step, .onError h])
          = step.run M value >>= fun e => e.mapErr h := by
            rw [Effect.pass_cons]
            simp only [Effect.pass_singleton]
            rfl
      _ = (Step.mapErr step h).run M value := (Step.run_mapErr M step h value).symm
      _ = (Effect.success value).pass M (.ofList [.onError h, .onSuccess (.mapErr step h)]) := by
            rw [Effect.pass_cons, hskipped, pure_bind, Effect.pass_singleton]
            rfl
  · intro error
    -- An error from before the step skips the step on both sides, and is transformed once.
    rfl

/-- A transformation of values has no errors of its own, so it may change places with a
transformation of errors. -/
theorem map_mapErr (f : S.Value → Action S S.Value) (h : S.Error → Action S S.Error) :
    Interchangeable M [.onSuccess (.map f), .onError h] [.onError h, .onSuccess (.map f)] := by
  have hdistributed := andThen_mapErr (M := M) (.map f) h
  have hrun : ∀ value, (Step.mapErr (.map f) h).run M value = (Step.map f).run M value := by
    intro value
    simp [Step.run, Effect.mapErr]
  constructor
  · intro value
    rw [hdistributed.success value]
    simp only [Effect.pass_success_onError, Effect.pass_success_onSuccess, hrun]
  · intro error
    exact hdistributed.error error

/-- Exchanging a block at the end of an effect makes no difference to any observer. -/
theorem alike {first second : List (Link S)} (h : Interchangeable M first second)
    (e : Effect S) :
    Action.Alike (Effect.Indistinguishable M) (first.foldlM (Effect.link M) e)
      (second.foldlM (Effect.link M) e) := by
  have hblock := (Effect.Rearranged.refl e).pass_block h
  rw [Effect.foldlM_link, Effect.foldlM_link]
  exact hblock.mono fun _ _ hrearranged => hrearranged.indistinguishable

end Interchangeable

/-! ## Laws -/

/-- Transforming values and transforming errors form a bifunctor, and transforming errors
distributes over chaining, up to observation.  For every effect, the two sides of each law call
the same functions in the same order while they build, and no observer can tell the two effects
apart: neither by their outcome or label, nor by resuming them any number of times with results of
any type, nor by any run.

* Two transformations of values one after the other are one, and so are two of errors.
* A transformation that changes nothing, of values or of errors, can be left out.
* A transformation of values and one of errors may change places.
* A transformation of errors behind a step is the same transformation in front of it, and on the
  effect that the step returns. -/
theorem Effect.bifunctor_laws (M : Meaning S) (e : Effect S) :
    (∀ f g : S.Value → Action S S.Value,
      Action.Alike (Indistinguishable M) (e.map M f >>= fun e' => e'.map M g)
        (e.map M fun value => f value >>= g)) ∧
    (∀ h k : S.Error → Action S S.Error,
      Action.Alike (Indistinguishable M) (e.mapErr h >>= fun e' => e'.mapErr k)
        (e.mapErr fun error => h error >>= k)) ∧
    Action.Alike (Indistinguishable M) (e.map M pure) (pure e) ∧
    Action.Alike (Indistinguishable M) (e.mapErr pure) (pure e) ∧
    (∀ (f : S.Value → Action S S.Value) (h : S.Error → Action S S.Error),
      Action.Alike (Indistinguishable M) (e.map M f >>= fun e' => e'.mapErr h)
        (e.mapErr h >>= fun e' => e'.map M f)) ∧
    (∀ (step : Step S) (h : S.Error → Action S S.Error),
      Action.Alike (Indistinguishable M) (e.andThen M step >>= fun e' => e'.mapErr h)
        (e.mapErr h >>= fun e' => e'.andThen M (.mapErr step h))) := by
  refine ⟨?_, ?_, ?_, ?_, ?_, ?_⟩
  · intro f g
    have halike := (Interchangeable.map_map (M := M) f g).alike e
    simpa [link, map] using halike
  · intro h k
    have halike := (Interchangeable.mapErr_mapErr (M := M) h k).alike e
    simpa [link] using halike
  · have halike := (Interchangeable.map_pure (M := M)).alike e
    simpa [link, map] using halike
  · have halike := (Interchangeable.mapErr_pure (M := M)).alike e
    simpa [link] using halike
  · intro f h
    have halike := (Interchangeable.map_mapErr (M := M) f h).alike e
    simpa [link, map] using halike
  · intro step h
    have halike := (Interchangeable.andThen_mapErr (M := M) step h).alike e
    simpa [link] using halike

end Deferred
