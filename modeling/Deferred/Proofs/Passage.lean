import Deferred.Effect.Resume
import Deferred.Interpreter

/-!
# Passage — a queue acts like its links, one after the other

A queue is worked off in a loop that stops at the first pending operation and hands the rest of
the queue on.  This file shows that the loop cannot be told from applying each link directly:

* `Effect.pass_cons`, `Effect.pass_append` — a queue may be cut anywhere;
* `Command.bare` — a command without its queue;
* `Command.resume_eq_bare`, `Command.advance_eq_bare` — whatever moves a command, what its head
  leads to passes through its queue;
* `Command.advance_push`, `Command.resume_inherit` — links queued behind a command are applied to
  where the command leads.
-/

namespace Deferred

variable {S : Signature}

/-! ## Errors -/

theorem passErrorAlong_append (error : S.Error) (first rest : List (Link S)) :
    passErrorAlong error (first ++ rest) =
      passErrorAlong error first >>= fun e => passErrorAlong e rest := by
  induction first generalizing error with
  | nil => simp
  | cons l first ih =>
    cases l with
    | onSuccess step =>
      simpa using ih error
    | onError f =>
      simp [ih]

@[simp] theorem passError_ofList (error : S.Error) (links : List (Link S)) :
    passError error (.ofList links) = passErrorAlong error links := by
  simp [passError]

/-! ## Effects -/

namespace Effect

theorem pass_nil (M : Meaning S) (e : Effect S) : e.pass M (.ofList []) = pure e := by
  cases e with
  | success value =>
    exact pass_success_nil M value
  | failure error =>
    simp [pass_failure]
  | command c =>
    have hq : c.queue.join (.ofList []) = c.queue := Deque.ext (by simp)
    rw [pass_command, Command.inherit, hq]

/-- Passing through a queue applies its first link and goes on with the others. -/
theorem pass_cons (M : Meaning S) (e : Effect S) (l : Link S) (rest : List (Link S)) :
    e.pass M (.ofList (l :: rest)) =
      e.link M l >>= fun next => next.pass M (.ofList rest) := by
  cases e with
  | success value =>
    cases l with
    | onSuccess step =>
      exact pass_success_onSuccess M value step rest
    | onError f =>
      simp [pass_success_onError, link, mapErr]
  | failure error =>
    cases l with
    | onSuccess step =>
      simp [pass_failure, link, andThen]
    | onError f =>
      simp [pass_failure, link, mapErr]
  | command c =>
    -- Nothing is called: both sides only put the links behind those of the command.
    have hq : c.queue.join (.ofList (l :: rest)) = (c.queue.pushBack l).join (.ofList rest) :=
      Deque.ext (by simp)
    cases l with
    | onSuccess step =>
      simp [pass_command, link, andThen, Command.inherit, Command.push, hq]
    | onError f =>
      simp [pass_command, link, mapErr, Command.inherit, Command.push, hq]

/-- A queue may be cut anywhere. -/
theorem pass_append (M : Meaning S) (e : Effect S) (first rest : List (Link S)) :
    e.pass M (.ofList (first ++ rest)) =
      e.pass M (.ofList first) >>= fun next => next.pass M (.ofList rest) := by
  induction first generalizing e with
  | nil =>
    simp [pass_nil]
  | cons l first ih =>
    simp [pass_cons, ih]

theorem pass_singleton (M : Meaning S) (e : Effect S) (l : Link S) :
    e.pass M (.ofList [l]) = e.link M l := by
  simp [pass_cons, pass_nil]

end Effect

/-! ## Commands and what is queued behind them -/

/-- Where a command leads to, passed through a queue: an effect passes through all of it, a
fault through the links that transform errors. -/
def Advance.pass (M : Meaning S) (a : Advance S) (queue : Deque (Link S)) :
    Action S (Advance S) :=
  match a with
  | .next e => return .next (← e.pass M queue)
  | .fault phase error => return .fault phase (← passError error queue)

/-- The answer to a result that was supplied by hand, passed through a queue: a refusal stays as
it is. -/
def passAnswer (M : Meaning S) (answer : Except ResumeError (Effect S))
    (queue : Deque (Link S)) : Action S (Except ResumeError (Effect S)) :=
  match answer with
  | .ok e => return .ok (← e.pass M queue)
  | .error refusal => return .error refusal

/-- An answer that has passed through a queue comes from an effect that has. -/
theorem passAnswer_eq_ok {M : Meaning S} {answer : Except ResumeError (Effect S)}
    {queue : Deque (Link S)} {w : S.World} {last : Effect S}
    (h : (passAnswer M answer queue w).1 = .ok last) :
    ∃ e, answer = .ok e ∧ (e.pass M queue w).1 = last := by
  cases answer with
  | error refusal =>
    cases h
  | ok e =>
    exact ⟨e, rfl, Except.ok.inj h⟩

theorem Advance.pass_append (M : Meaning S) (a : Advance S) (first rest : List (Link S)) :
    a.pass M (.ofList (first ++ rest)) =
      a.pass M (.ofList first) >>= fun b => b.pass M (.ofList rest) := by
  cases a with
  | next e =>
    simp [Advance.pass, Effect.pass_append]
  | fault phase error =>
    simp [Advance.pass, passErrorAlong_append]

theorem passAnswer_append (M : Meaning S) (answer : Except ResumeError (Effect S))
    (first rest : List (Link S)) :
    passAnswer M answer (.ofList (first ++ rest)) =
      passAnswer M answer (.ofList first) >>= fun a => passAnswer M a (.ofList rest) := by
  cases answer with
  | ok e =>
    simp [passAnswer, Effect.pass_append]
  | error refusal =>
    simp [passAnswer]

namespace Command

/-- A command without its queue. -/
def bare (c : Command S) : Command S :=
  { c with queue := .empty }

@[simp] theorem label_bare (c : Command S) : c.bare.label = c.label := rfl

@[simp] theorem request_bare (c : Command S) : c.bare.request = c.request := rfl

@[simp] theorem queue_bare (c : Command S) : c.bare.queue = .ofList [] := rfl

/-- The queue of a command gets what its head leads to, and nothing else reaches it. -/
theorem advance_eq_bare (M : Meaning S) (c : Command S) :
    c.advance M = c.bare.advance M >>= fun a => a.pass M c.queue := by
  unfold advance
  rw [bind_assoc]
  -- The bare command invokes the same operation and has no links to pass the answer through.
  refine bind_congr fun answer => ?_
  cases answer with
  | error error =>
    simp [Advance.pass]
  | ok result =>
    simp only [request_bare, queue_bare, bind_assoc]
    refine bind_congr fun outcome => ?_
    cases outcome with
    | error error =>
      simp [Advance.pass]
    | ok next =>
      simp [Advance.pass, Effect.pass_nil]

/-- The same for a result that is supplied by hand. -/
theorem resume_eq_bare (M : Meaning S) (c : Command S) (r : S.ResultType) (result : S.Result r) :
    c.resume M r result = c.bare.resume M r result >>= fun a => passAnswer M a c.queue := by
  unfold resume
  -- The type is checked before anything is called, so a refusal does not get to the queue.
  by_cases h : r = c.request.result
  · simp only [request_bare, queue_bare, h, ↓reduceDIte, bind_assoc]
    refine bind_congr fun outcome => ?_
    cases outcome with
    | error fault =>
      simp [passAnswer, Effect.pass_failure]
    | ok next =>
      simp [passAnswer, Effect.pass_nil]
  · simp [h, passAnswer]

theorem bare_push (c : Command S) (l : Link S) : (c.push l).bare = c.bare := rfl

/-- A link queued behind a command is applied to where the command leads. -/
theorem advance_push (M : Meaning S) (c : Command S) (l : Link S) :
    (c.push l).advance M = c.advance M >>= fun a => a.pass M (.ofList [l]) := by
  have hq : (c.push l).queue = .ofList (c.queue.toList ++ [l]) := Deque.ext (by simp)
  calc
    (c.push l).advance M
        = c.bare.advance M >>= fun a => a.pass M (.ofList (c.queue.toList ++ [l])) := by
          rw [advance_eq_bare, bare_push, hq]
    _ = c.bare.advance M >>= fun a =>
          a.pass M c.queue >>= fun b => b.pass M (.ofList [l]) := by
          simp only [Advance.pass_append, Deque.ofList_toList]
    _ = c.advance M >>= fun a => a.pass M (.ofList [l]) := by
          rw [advance_eq_bare M c, bind_assoc]

/-- Links that are put behind a command are applied to what a result that is supplied by hand leads
to. -/
theorem resume_inherit (M : Meaning S) (c : Command S) (links : List (Link S)) (r : S.ResultType)
    (result : S.Result r) :
    (c.inherit (.ofList links)).resume M r result =
      c.resume M r result >>= fun a => passAnswer M a (.ofList links) := by
  have hq : (c.inherit (.ofList links)).queue = .ofList (c.queue.toList ++ links) :=
    Deque.ext (by simp)
  calc
    (c.inherit (.ofList links)).resume M r result
        = c.bare.resume M r result >>= fun a =>
            passAnswer M a (.ofList (c.queue.toList ++ links)) := by
          rw [resume_eq_bare, hq]
          rfl
    _ = c.bare.resume M r result >>= fun a =>
          passAnswer M a c.queue >>= fun b => passAnswer M b (.ofList links) := by
          simp only [passAnswer_append, Deque.ofList_toList]
    _ = c.resume M r result >>= fun a => passAnswer M a (.ofList links) := by
          rw [resume_eq_bare M c, bind_assoc]

/-- The same for a single link. -/
theorem resume_push (M : Meaning S) (c : Command S) (l : Link S) (r : S.ResultType)
    (result : S.Result r) :
    (c.push l).resume M r result =
      c.resume M r result >>= fun a => passAnswer M a (.ofList [l]) := by
  have hq : c.queue.pushBack l = c.queue.join (.ofList [l]) := Deque.ext (by simp)
  have hpush : c.push l = c.inherit (.ofList [l]) := by
    rw [push, inherit, hq]
  rw [hpush]
  exact resume_inherit M c [l] r result

end Command

end Deferred
