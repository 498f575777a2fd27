import Deferred.Proofs.Passage
import Deferred.Proofs.Run
import Mathlib.Data.List.Induction

/-!
# Walk — a queue across suspensions

A command is walked to an outcome by results supplied by hand and by steps of the interpreter, in
any order.  On the way the walk may stop at commands that bring queues of their own.  The library
keeps one flat queue; this file keeps, beside it, an account of every queue that has been entered.

* `Move`, `Effect.walk` — a walk as the library makes it;
* `Course` — how far the links of one queue have been worked off, and which of them were called;
* `Standing`, `Standing.walk` — the walk with its accounts;
* `Standing.flat_walk` — the accounts do not change the walk;
* `Standing.sound_walk` — what the accounts say at every point of a walk;
* `Command.walk_accounts` — both together.
-/

namespace Deferred

variable {S : Signature}

/-! ## Walks -/

/-- What can happen to a pending operation: a result is supplied by hand, the interpreter takes a
step, or something else happens in the world. -/
inductive Move (S : Signature) where
  | byHand (r : S.ResultType) (result : S.Result r)
  | byInterpreter
  | elsewhere (act : Action S Unit)

/-- What a move makes of a command; `none` if the command is still pending afterwards, as it is
after a result that was refused. -/
def Move.act (M : Meaning S) (c : Command S) : Move S → Action S (Option (Effect S))
  | .byHand r result => return (← c.resume M r result).toOption
  | .byInterpreter => do
      match ← c.advance M with
      | .next e => return some e
      | .fault _ error => return some (.failure error)
  | .elsewhere act => do
      act
      return none

namespace Effect

/-- One move of a walk.  An outcome is the end of it. -/
def step (M : Meaning S) (move : Move S) : Effect S → Action S (Effect S)
  | .command c => return (← move.act M c).getD (.command c)
  | e => return e

/-- The moves of a walk, one after the other. -/
def walk (M : Meaning S) : List (Move S) → Effect S → Action S (Effect S)
  | [], e => return e
  | move :: moves, e => do walk M moves (← e.step M move)

end Effect

/-! ## Accounts -/

/-- Whether link number `i` of a queue is called when an error comes up behind link number `k`:
up to there the links on success are, from there on those on error. -/
def Link.isCalled (k i : Nat) : Link S → Bool
  | .onSuccess _ => i ≤ k
  | .onError _ => k < i

/-- The numbers, counted from one, of the links that are called when an error comes up behind link
number `k`. -/
def calledBy (k : Nat) (links : List (Link S)) : List Nat :=
  ((links.zipIdx 1).filter fun p => p.1.isCalled k p.2).map Prod.snd

/-- An effect can only come up behind a link on success, which has returned it, or before all
links. -/
def ComesUp (k : Nat) (links : List (Link S)) : Prop :=
  k = 0 ∨ ∃ step, links[k - 1]? = some (.onSuccess step)

/-- How far the links of a queue have been worked off.

* `done` — the number of links that are behind;
* `called` — the numbers of those that were called, in the order of the calls;
* `turned` — how many links were behind when an error came up. -/
structure Course where
  done : Nat
  called : List Nat
  turned : Option Nat

namespace Course

def start : Course := ⟨0, [], none⟩

/-- The next link is left behind without being called. -/
def skip (course : Course) : Course :=
  { course with done := course.done + 1 }

/-- The next link is called. -/
def call (course : Course) : Course :=
  { course with done := course.done + 1, called := course.called ++ [course.done + 1] }

/-- An error has come up. -/
def turn (course : Course) : Course :=
  { course with turned := some course.done }

/-- An error goes along the links that are left. -/
def followError : List (Link S) → S.Error → Course → Action S (S.Error × Course)
  | [], error, course => return (error, course)
  | .onSuccess _ :: rest, error, course => followError rest error course.skip
  | .onError f :: rest, error, course => do followError rest (← f error) course.call

/-- An effect goes along the links that are left, up to the end or to a command. -/
def follow (M : Meaning S) : List (Link S) → Effect S → Course → Action S (Effect S × Course)
  | _, .command c, course => return (.command c, course)
  | links, .failure error, course => do
      let (error, course) ← followError links error course.turn
      return (.failure error, course)
  | [], .success value, course => return (.success value, course)
  | .onSuccess step :: rest, .success value, course => do
      follow M rest (← step.run M value) course.call
  | .onError _ :: rest, .success value, course => follow M rest (.success value) course.skip

end Course

/-- A command that was entered, and the account of its queue. -/
structure Frame (S : Signature) where
  command : Command S
  course : Course

namespace Frame

def links (frame : Frame S) : List (Link S) := frame.command.queue.toList

/-- The links of the command's queue that are left. -/
def ahead (frame : Frame S) : List (Link S) := frame.links.drop frame.course.done

end Frame

/-- Where a walk stands.

* `effect` — the pending command as it was returned, or the outcome;
* `inner` — the commands that it was returned from since the last link of the walk's own queue,
  innermost first;
* `base` — the account of the walk's own queue. -/
structure Standing (S : Signature) where
  effect : Effect S
  inner : List (Frame S)
  base : Course

namespace Standing

/-- A walk begins at a command, with all of its queue ahead. -/
def start (c : Command S) : Standing S := ⟨.command c.bare, [], .start⟩

/-- An effect works its way out: through what is left of the queues of the commands that were
entered, innermost first, and through what is left of the walk's own queue. -/
def settle (M : Meaning S) (links : List (Link S)) (e : Effect S) :
    List (Frame S) → Course → Action S (Standing S)
  | [], base => do
      let (e, base) ← base.follow M (links.drop base.done) e
      return ⟨e, [], base⟩
  | frame :: outer, base => do
      let (e, course) ← frame.course.follow M frame.ahead e
      match e with
      | .command c => return ⟨.command c, { frame with course } :: outer, base⟩
      | e => settle M links e outer base

/-- One move of a walk, with its accounts: the command that it moves is entered. -/
def step (M : Meaning S) (links : List (Link S)) (move : Move S) (s : Standing S) :
    Action S (Standing S) :=
  match s.effect with
  | .command c => do
      match ← move.act M c.bare with
      | some e => settle M links e (⟨c, .start⟩ :: s.inner) s.base
      | none => return s
  | _ => return s

/-- The moves of a walk, one after the other. -/
def walk (M : Meaning S) (links : List (Link S)) :
    List (Move S) → Standing S → Action S (Standing S)
  | [], s => return s
  | move :: moves, s => do walk M links moves (← s.step M links move)

/-- The links that are left of all queues, in the order in which they come up. -/
def ahead (links : List (Link S)) (inner : List (Frame S)) (base : Course) : List (Link S) :=
  inner.flatMap Frame.ahead ++ links.drop base.done

end Standing

/-- An effect with links behind its own, if it is pending. -/
def Effect.inherit (links : List (Link S)) : Effect S → Effect S
  | .command c => .command (c.inherit (.ofList links))
  | e => e

/-- The effect that the library has in place of the accounts: the links that are left of all
queues stand in the queue of the pending command. -/
def Standing.flat (links : List (Link S)) (s : Standing S) : Effect S :=
  s.effect.inherit (ahead links s.inner s.base)

/-! ## The accounts do not change the walk -/

namespace Course

theorem followError_fst (links : List (Link S)) (error : S.Error) (course : Course) :
    Prod.fst <$> followError links error course = passErrorAlong error links := by
  induction links generalizing error course with
  | nil =>
    simp [followError]
  | cons l links ih =>
    cases l with
    | onSuccess step =>
      simp [followError, ih]
    | onError f =>
      simp [followError, ih]

theorem follow_command (M : Meaning S) (links : List (Link S)) (c : Command S) (course : Course) :
    course.follow M links (.command c) = pure (.command c, course) := by
  cases links <;> rfl

theorem follow_failure (M : Meaning S) (links : List (Link S)) (error : S.Error)
    (course : Course) :
    course.follow M links (.failure error) =
      (fun p => (.failure p.1, p.2)) <$> followError links error course.turn := by
  cases links <;> simp [follow]

theorem pass_failure_eq_follow (M : Meaning S) (all links : List (Link S)) (error : S.Error)
    (course : Course) :
    (Effect.failure error).pass M (.ofList links) =
      (fun p => p.1.inherit (all.drop p.2.done)) <$> course.follow M links (.failure error) := by
  rw [Effect.pass_failure, passError_ofList, ← followError_fst links error course.turn,
    follow_failure]
  simp [Effect.inherit]

/-- Going along what is left of a queue is passing through it, except that a command does not take
over the links that are left then. -/
theorem pass_eq_follow (M : Meaning S) (all links : List (Link S)) (e : Effect S) (course : Course)
    (h : all.drop course.done = links) :
    e.pass M (.ofList links) =
      (fun p => p.1.inherit (all.drop p.2.done)) <$> course.follow M links e := by
  -- Only a success gets on to the next link, and it may become any effect there.
  induction links generalizing e course with
  | nil =>
    cases e with
    | success value =>
      simp [follow, Effect.pass_nil, Effect.inherit]
    | failure error =>
      exact pass_failure_eq_follow M all [] error course
    | command c =>
      simp [follow_command, Effect.pass_command, Effect.inherit, h]
  | cons l links ih =>
    have hrest : all.drop (course.done + 1) = links := by
      rw [← List.drop_drop, h]
      rfl
    cases e with
    | success value =>
      cases l with
      | onSuccess step =>
        have hcall := fun e => ih e course.call hrest
        simp [follow, Effect.pass_success_onSuccess, hcall]
      | onError f =>
        have hskip := ih (.success value) course.skip hrest
        simp [follow, Effect.pass_success_onError, hskip]
    | failure error =>
      exact pass_failure_eq_follow M all (l :: links) error course
    | command c =>
      simp [follow_command, Effect.pass_command, Effect.inherit, h]

end Course

@[simp] theorem Command.bare_inherit (c : Command S) (links : Deque (Link S)) :
    (c.inherit links).bare = c.bare := rfl

/-- A move gets to the head of a command only; what it leads to passes through the queue. -/
theorem Move.act_eq_bare (M : Meaning S) (move : Move S) (c : Command S) :
    move.act M c =
      move.act M c.bare >>= fun
        | some e => some <$> e.pass M c.queue
        | none => pure none := by
  cases move with
  | byHand r result =>
    simp only [act, Command.resume_eq_bare M c, bind_assoc, pure_bind]
    refine bind_congr fun answer => ?_
    cases answer with
    | ok e =>
      simp [passAnswer, Except.toOption]
    | error refusal =>
      simp [passAnswer, Except.toOption]
  | byInterpreter =>
    simp only [act, Command.advance_eq_bare M c, bind_assoc]
    refine bind_congr fun a => ?_
    cases a with
    | next e =>
      simp [Advance.pass]
    | fault phase error =>
      simp [Advance.pass, Effect.pass_failure]
  | elsewhere act =>
    simp [Move.act]

namespace Standing

/-- Working its way out through all queues is passing through one queue that holds what is left of
them. -/
theorem pass_eq_settle (M : Meaning S) (links : List (Link S)) (e : Effect S)
    (inner : List (Frame S)) (base : Course) :
    e.pass M (.ofList (ahead links inner base)) = flat links <$> settle M links e inner base := by
  induction inner generalizing e with
  | nil =>
    simp [settle, ahead, flat, Course.pass_eq_follow M links _ e base rfl]
  | cons frame outer ih =>
    have hahead : ahead links (frame :: outer) base = frame.ahead ++ ahead links outer base := by
      simp [ahead]
    have hframe := Course.pass_eq_follow M frame.links frame.ahead e frame.course rfl
    rw [hahead, Effect.pass_append, hframe, settle]
    simp only [bind_map_left, map_bind]
    refine bind_congr fun p => ?_
    rcases p with ⟨e, course⟩
    cases e with
    | success value =>
      exact ih (.success value)
    | failure error =>
      exact ih (.failure error)
    | command c =>
      -- The command takes over the rest of this queue first, and then that of the outer ones.
      have hqueue : (c.queue.join (.ofList (frame.links.drop course.done))).join
            (.ofList (ahead links outer base)) =
          c.queue.join (.ofList (ahead links ({ frame with course } :: outer) base)) :=
        Deque.ext (by simp [ahead, Frame.ahead, Frame.links])
      simp [Effect.inherit, Effect.pass_command, flat, Command.inherit, hqueue]

theorem flat_step (M : Meaning S) (links : List (Link S)) (move : Move S) (s : Standing S) :
    (s.flat links).step M move = flat links <$> s.step M links move := by
  rcases s with ⟨e, inner, base⟩
  cases e with
  | success value =>
    simp [flat, Effect.inherit, Effect.step, step]
  | failure error =>
    simp [flat, Effect.inherit, Effect.step, step]
  | command c =>
    simp only [flat, Effect.inherit, Effect.step, step, map_bind]
    rw [Move.act_eq_bare, Command.bare_inherit, bind_assoc]
    refine bind_congr fun e? => ?_
    cases e? with
    | none =>
      simp [flat, Effect.inherit]
    | some e =>
      -- The command's own links are the first that are left once it is entered.
      have hqueue : (c.inherit (.ofList (ahead links inner base))).queue =
          .ofList (ahead links (⟨c, .start⟩ :: inner) base) :=
        Deque.ext (by simp [ahead, Frame.ahead, Frame.links, Course.start])
      simp [hqueue, pass_eq_settle]

theorem walk_concat (M : Meaning S) (links : List (Link S)) (moves : List (Move S))
    (move : Move S) (s : Standing S) :
    walk M links (moves ++ [move]) s =
      walk M links moves s >>= fun s' => s'.step M links move := by
  induction moves generalizing s with
  | nil =>
    simp [walk]
  | cons first moves ih =>
    simp [walk, ih]

/-- The accounts do not change the walk. -/
theorem flat_walk (M : Meaning S) (links : List (Link S)) (moves : List (Move S))
    (s : Standing S) : (s.flat links).walk M moves = flat links <$> walk M links moves s := by
  induction moves generalizing s with
  | nil =>
    simp [Effect.walk, walk]
  | cons move moves ih =>
    simp [Effect.walk, walk, flat_step, ih]

theorem flat_start (c : Command S) : (start c).flat c.queue.toList = .command c := by
  have hqueue : c.bare.queue.join (.ofList (ahead c.queue.toList [] .start)) = c.queue :=
    Deque.ext (by simp [ahead, Course.start])
  simp only [flat, start, Effect.inherit, Command.inherit, hqueue]
  rfl

end Standing

/-! ## What the accounts say -/

theorem calledBy_concat (k : Nat) (links : List (Link S)) (l : Link S) :
    calledBy k (links ++ [l]) =
      calledBy k links ++ if l.isCalled k (links.length + 1) then [links.length + 1] else [] := by
  unfold calledBy
  rw [List.zipIdx_append, List.filter_append, List.map_append, Nat.add_comm 1]
  cases h : l.isCalled k (links.length + 1) <;> simp [h]

/-- It makes no difference whether an error comes up behind the last link or not at all. -/
theorem calledBy_succ_length (links : List (Link S)) :
    calledBy (links.length + 1) links = calledBy links.length links := by
  unfold calledBy
  refine congrArg _ (List.filter_congr ?_)
  intro p hp
  rcases p with ⟨l, i⟩
  have hi : i < 1 + links.length := (List.mem_zipIdx hp).2.1
  cases l with
  | onSuccess step =>
    simp only [Link.isCalled, decide_eq_decide]
    omega
  | onError f =>
    simp only [Link.isCalled, decide_eq_decide]
    omega

/-- Links are called in the order of the queue, and none of them twice. -/
theorem calledBy_sorted (k : Nat) (links : List (Link S)) :
    (calledBy k links).Pairwise (· < ·) := by
  have hsub : (calledBy k links).Sublist (List.range' 1 links.length) := by
    rw [← List.zipIdx_map_snd 1 links]
    exact List.filter_sublist.map Prod.snd
  exact List.Pairwise.sublist hsub (List.pairwise_lt_range' 1 Nat.one_pos)

namespace ComesUp

theorem append {k : Nat} {links : List (Link S)} (h : ComesUp k links) (rest : List (Link S)) :
    ComesUp k (links ++ rest) := by
  rcases h with hk | ⟨step, hstep⟩
  · exact .inl hk
  · refine .inr ⟨step, ?_⟩
    rw [List.getElem?_append_left (List.getElem?_eq_some_iff.1 hstep).1, hstep]

theorem take {k : Nat} {links : List (Link S)} (h : ComesUp k links) :
    ComesUp k (links.take k) := by
  rcases Nat.eq_zero_or_pos k with hk | hk
  · exact .inl hk
  · rcases h with rfl | ⟨step, hstep⟩
    · omega
    · exact .inr ⟨step, by rw [List.getElem?_take_of_lt (by omega), hstep]⟩

theorem concat (links : List (Link S)) (step : Step S) :
    ComesUp (links ++ [Link.onSuccess step]).length (links ++ [Link.onSuccess step]) :=
  .inr ⟨step, by simp⟩

end ComesUp

namespace Course

/-- The account of links that were worked off without an error. -/
def along (behind : List (Link S)) : Course :=
  ⟨behind.length, calledBy behind.length behind, none⟩

/-- Some links are behind, no error has come up, and the last link behind has returned an
effect that is pending. -/
structure Paused (links : List (Link S)) (course : Course) : Prop where
  done_le : course.done ≤ links.length
  comesUp : ComesUp course.done links
  eq_along : course = along (links.take course.done)

/-- What the account of a queue says when an effect has gone along it. -/
def Fits (links : List (Link S)) : Effect S × Course → Prop
  | (.success _, course) => course = ⟨links.length, calledBy (links.length + 1) links, none⟩
  | (.failure _, course) =>
      ∃ k, ComesUp k links ∧ course = ⟨links.length, calledBy k links, some k⟩
  | (.command _, course) => course.Paused links

theorem paused_start (links : List (Link S)) : start.Paused links where
  done_le := Nat.zero_le _
  comesUp := .inl rfl
  eq_along := rfl

theorem paused_along {behind : List (Link S)} (h : ComesUp behind.length behind)
    (rest : List (Link S)) : (along behind).Paused (behind ++ rest) where
  done_le := by simp [along]
  comesUp := h.append rest
  eq_along := by simp [along]

theorem along_call (behind : List (Link S)) (step : Step S) :
    (along behind).call = along (behind ++ [.onSuccess step]) := by
  simp [along, call, calledBy_concat, Link.isCalled, calledBy_succ_length]

theorem along_skip (behind : List (Link S)) (f : S.Error → Action S S.Error) :
    (along behind).skip = along (behind ++ [.onError f]) := by
  simp [along, skip, calledBy_concat, Link.isCalled, calledBy_succ_length]

theorem followError_account {k : Nat} (behind rest : List (Link S)) (hk : k ≤ behind.length)
    (error : S.Error) (w : S.World) :
    (followError rest error ⟨behind.length, calledBy k behind, some k⟩ w).1.2 =
      ⟨(behind ++ rest).length, calledBy k (behind ++ rest), some k⟩ := by
  induction rest generalizing behind error w with
  | nil =>
    simp [followError]
  | cons l rest ih =>
    -- The point where the error came up stays where it is while links are left behind.
    have hk' : k ≤ (behind ++ [l]).length := by
      simp only [List.length_append]
      omega
    have hlt : ¬ behind.length + 1 ≤ k := by omega
    have happend : behind ++ [l] ++ rest = behind ++ l :: rest := by simp
    rw [← happend]
    cases l with
    | onSuccess step =>
      rw [← ih _ hk' error w]
      simp [followError, skip, calledBy_concat, Link.isCalled, hlt]
    | onError f =>
      rw [← ih _ hk' (f error w).1 (f error w).2]
      simp [followError, call, calledBy_concat, Link.isCalled, Nat.lt_succ_of_le hk]

theorem follow_failure_fits (M : Meaning S) {behind : List (Link S)}
    (h : ComesUp behind.length behind) (rest : List (Link S)) (error : S.Error) (w : S.World) :
    Fits (behind ++ rest) ((along behind).follow M rest (.failure error) w).1 := by
  rw [follow_failure, Action.map_apply]
  exact ⟨behind.length, h.append rest,
    followError_account behind rest (Nat.le_refl _) error w⟩

theorem follow_command_fits (M : Meaning S) {behind : List (Link S)}
    (h : ComesUp behind.length behind) (rest : List (Link S)) (c : Command S) (w : S.World) :
    Fits (behind ++ rest) ((along behind).follow M rest (.command c) w).1 := by
  rw [follow_command, Action.pure_apply]
  exact paused_along h rest

/-- The account after an effect has gone along the rest of a queue.  An effect that is not a success
stands behind a link that can have returned it. -/
theorem follow_fits (M : Meaning S) (behind rest : List (Link S)) (e : Effect S) (w : S.World)
    (h : e.isSuccess = false → ComesUp behind.length behind) :
    Fits (behind ++ rest) ((along behind).follow M rest e w).1 := by
  induction rest generalizing behind e w with
  | nil =>
    cases e with
    | success value =>
      simp [follow, Fits, along, calledBy_succ_length]
    | failure error =>
      exact follow_failure_fits M (h rfl) [] error w
    | command c =>
      exact follow_command_fits M (h rfl) [] c w
  | cons l rest ih =>
    cases e with
    | success value =>
      have happend : behind ++ [l] ++ rest = behind ++ l :: rest := by simp
      rw [← happend]
      -- Whatever a step returns stands behind that step; a transformation is only left behind.
      cases l with
      | onSuccess step =>
        rw [follow, Action.bind_apply, along_call behind step]
        exact ih _ _ _ fun _ => .concat behind step
      | onError f =>
        rw [follow, along_skip behind f]
        exact ih _ _ _ nofun
    | failure error =>
      exact follow_failure_fits M (h rfl) _ error w
    | command c =>
      exact follow_command_fits M (h rfl) _ c w

/-- A queue that was paused is taken up again where it was left. -/
theorem Paused.follow {links : List (Link S)} {course : Course} (h : course.Paused links)
    (M : Meaning S) (e : Effect S) (w : S.World) :
    Fits links (course.follow M (links.drop course.done) e w).1 := by
  have hlength : (links.take course.done).length = course.done :=
    List.length_take_of_le h.done_le
  have hcomesUp : ComesUp (links.take course.done).length (links.take course.done) := by
    rw [hlength]
    exact h.comesUp.take
  have hfits := follow_fits M _ (links.drop course.done) e w fun _ => hcomesUp
  rwa [← h.eq_along, List.take_append_drop] at hfits

end Course

namespace Standing

/-- What is known of the commands that a walk has entered: their queues are paused, and each of
them was pending at a point that has been seen, when those further out and the walk's own queue
already were as they are now. -/
def Entered (Seen : Standing S → Prop) (base : Course) : List (Frame S) → Prop
  | [] => True
  | frame :: outer =>
      frame.course.Paused frame.links ∧ Seen ⟨.command frame.command, outer, base⟩ ∧
        Entered Seen base outer

theorem Entered.mono {Seen Seen' : Standing S → Prop} (h : ∀ s, Seen s → Seen' s) {base : Course}
    {inner : List (Frame S)} (hinner : Entered Seen base inner) : Entered Seen' base inner := by
  induction inner with
  | nil =>
    trivial
  | cons frame outer ih =>
    rcases hinner with ⟨hpaused, hseen, houter⟩
    exact ⟨hpaused, h _ hseen, ih houter⟩

/-- What the accounts say at a point of a walk through a queue. -/
structure Sound (links : List (Link S)) (Seen : Standing S → Prop) (s : Standing S) : Prop where
  base : Course.Fits links (s.effect, s.base)
  inner : Entered Seen s.base s.inner

theorem sound_start (Seen : Standing S → Prop) (c : Command S) :
    (start c).Sound c.queue.toList Seen where
  base := Course.paused_start _
  inner := trivial

theorem sound_settle (M : Meaning S) {links : List (Link S)} {Seen : Standing S → Prop}
    {base : Course} (hbase : base.Paused links) {inner : List (Frame S)}
    (hinner : Entered Seen base inner) (e : Effect S) (w : S.World) :
    Sound links Seen (settle M links e inner base w).1 := by
  induction inner generalizing e w with
  | nil =>
    exact ⟨hbase.follow M e w, trivial⟩
  | cons frame outer ih =>
    rcases hinner with ⟨hpaused, hseen, houter⟩
    have hframe := hpaused.follow M e w
    rw [settle, Action.bind_apply, Frame.ahead]
    generalize frame.course.follow M (frame.links.drop frame.course.done) e w = p at hframe ⊢
    rcases p with ⟨⟨e', course⟩, w'⟩
    -- An outcome leaves the frame and meets the next one; a command is pending inside of it.
    cases e' with
    | success value =>
      exact ih houter (.success value) w'
    | failure error =>
      exact ih houter (.failure error) w'
    | command c =>
      exact ⟨hbase, hframe, hseen, houter⟩

theorem sound_step (M : Meaning S) {links : List (Link S)} {Seen : Standing S → Prop}
    {s : Standing S} (hs : s.Sound links Seen) (hseen : Seen s) (move : Move S) (w : S.World) :
    Sound links Seen (s.step M links move w).1 := by
  rcases s with ⟨e, inner, base⟩
  cases e with
  | success value =>
    exact hs
  | failure error =>
    exact hs
  | command c =>
    rcases hact : move.act M c.bare w with ⟨e?, w'⟩
    simp only [step, Action.bind_apply, hact]
    cases e? with
    | none =>
      exact hs
    | some e =>
      have hinner : Entered Seen base (⟨c, .start⟩ :: inner) :=
        ⟨Course.paused_start _, hseen, hs.inner⟩
      exact sound_settle M hs.base hinner e w'

/-- The points of a walk that some moves have led through. -/
def Visited (M : Meaning S) (links : List (Link S)) (first : Standing S) (moves : List (Move S))
    (w : S.World) (s : Standing S) : Prop :=
  ∃ earlier, earlier <+: moves ∧ (walk M links earlier first w).1 = s

theorem sound_walk (M : Meaning S) (c : Command S) (moves : List (Move S)) (w : S.World) :
    Sound c.queue.toList (Visited M c.queue.toList (start c) moves w)
      (walk M c.queue.toList moves (start c) w).1 := by
  induction moves using List.reverseRecOn with
  | nil =>
    exact sound_start _ c
  | append_singleton moves move ih =>
    rw [walk_concat, Action.bind_apply]
    have hvisited : ∀ s, Visited M c.queue.toList (start c) moves w s →
        Visited M c.queue.toList (start c) (moves ++ [move]) w s := by
      intro s hs
      rcases hs with ⟨earlier, hearlier, hs⟩
      exact ⟨earlier, hearlier.trans (List.prefix_append _ _), hs⟩
    -- The command that the last move enters was pending right before it.
    refine sound_step M ⟨ih.base, ih.inner.mono hvisited⟩ ?_ move _
    exact ⟨moves, List.prefix_append _ _, rfl⟩

end Standing

/-! ## Both together -/

/-- A run of the interpreter is a walk. -/
theorem Interpreter.Run.exists_walk {I : Interpreter S} {span : Option String} {e : Effect S}
    {w w' : S.World} {r : Except S.Error S.Value} {t : Trace} (h : I.Run span e w r t w') :
    ∃ moves, e.walk I.meaning moves w = (.ofExcept r, w') := by
  induction h with
  | success value w =>
    exact ⟨[], rfl⟩
  | failure error w =>
    exact ⟨[], rfl⟩
  | @next c e w w₁ w₂ r t advanced _ ih =>
    rcases ih with ⟨moves, hmoves⟩
    refine ⟨.elsewhere (Prod.mk () ∘ I.announce span c) :: .byInterpreter :: moves, ?_⟩
    simp [Effect.walk, Effect.step, Move.act, advanced, hmoves]
  | @fault c phase error w w₁ advanced =>
    refine ⟨[.elsewhere (Prod.mk () ∘ I.announce span c), .byInterpreter], ?_⟩
    simp [Effect.walk, Effect.step, Move.act, advanced, Effect.ofExcept]

open Standing in
/-- A queue across suspensions.  Let a command, with any queue, be walked by any moves.  The walk
with its accounts passes through the same worlds as that of the library and comes to the same
effect.

While a command is pending, its queue holds the links that it was returned with, then those that
are left of the commands that it was returned from since the last link of the walk's own queue,
innermost first, and then exactly those links of the walk's own queue that are not behind.  Each of
these commands was pending earlier in the walk, with the outer ones and the walk's own queue as they
are now.

When there is an outcome, there is one point such that the links of the walk's own queue that were
called are those on success up to there and those on error behind it, each once and in order.  The
point lies behind all links if the outcome is a success.  If it is a failure, the point is the link
on success that returned the effect which has failed, or it lies before all links. -/
theorem Command.walk_accounts (M : Meaning S) (c : Command S) (moves : List (Move S))
    (w : S.World) :
    ∃ s w', Standing.walk M c.queue.toList moves (start c) w = (s, w') ∧
      (Effect.command c).walk M moves w = (s.flat c.queue.toList, w') ∧
      (∀ pending, s.flat c.queue.toList = .command pending →
        ∃ own, s.effect = .command own ∧
          pending.label = own.label ∧ pending.request = own.request ∧
          pending.queue.toList =
            own.queue.toList ++ s.inner.flatMap Frame.ahead ++ c.queue.toList.drop s.base.done ∧
          Entered (Visited M c.queue.toList (start c) moves w) s.base s.inner ∧
          s.base.Paused c.queue.toList) ∧
      (∀ r, s.flat c.queue.toList = .ofExcept r →
        ∃ k, s.base.called = calledBy k c.queue.toList ∧ s.base.called.Pairwise (· < ·) ∧
          match r with
          | .ok _ => k = c.queue.toList.length + 1
          | .error _ => s.base.turned = some k ∧ ComesUp k c.queue.toList) := by
  have hsound := sound_walk M c moves w
  rcases hwalk : Standing.walk M c.queue.toList moves (start c) w with ⟨s, w'⟩
  rw [hwalk] at hsound
  refine ⟨s, w', rfl, ?_, ?_, ?_⟩
  · have hflat := flat_walk M c.queue.toList moves (start c)
    rw [flat_start] at hflat
    rw [hflat, Action.map_apply, hwalk]
  · intro pending hpending
    rcases s with ⟨e, inner, base⟩
    cases e with
    | success value =>
      cases hpending
    | failure error =>
      cases hpending
    | command own =>
      cases hpending
      exact ⟨own, rfl, rfl, rfl, by simp [ahead], hsound.inner, hsound.base⟩
  · intro r hr
    rcases s with ⟨e, inner, base⟩
    cases e with
    | success value =>
      cases r with
      | ok value' =>
        have hbase : base = _ := hsound.base
        exact ⟨_, by rw [hbase], by rw [hbase]; exact calledBy_sorted _ _, rfl⟩
      | error error =>
        cases hr
    | failure error =>
      cases r with
      | ok value' =>
        cases hr
      | error error' =>
        rcases hsound.base with ⟨k, hk, hbase⟩
        exact ⟨k, by rw [hbase], by rw [hbase]; exact calledBy_sorted _ _, by rw [hbase], hk⟩
    | command own =>
      cases r <;> cases hr

end Deferred
