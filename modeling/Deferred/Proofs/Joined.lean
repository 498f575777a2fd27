import Deferred.Effect.Basic
import Mathlib.Logic.Function.Iterate

/-!
# Joined — one queue behind another, whichever of the two moves

A command that is returned midway inherits what is left of a queue.  Its own links go in front of
what is left, one by one from the last to the first, or what is left goes behind its own links.  The
shorter queue is the one that moves, which saves time and makes no other difference.

* `Deque.moveLast` — one round of moving links to the front of another queue;
* `Deque.toList_iterate_moveLast` — the invariant of the rounds;
* `Deque.moveBefore_eq_iterate`, `Deque.moveBefore_eq_moveBehind` — all rounds together, and the
  same queue by moving the other one;
* `Command.Addition` — what is put behind a command in one go;
* `Command.additions_concatenate` — whatever is put behind a command stands in its queue once, in
  the order in which it has come.
-/

namespace Deferred

/-! ## Moving one queue -/

namespace Deque

variable {α : Type}

theorem toList_eq_nil_of_popBack? {q : Deque α} (h : q.popBack? = none) : q.toList = [] := by
  have hlist := q.toList_popBack?
  rw [h, Option.map_none] at hlist
  by_contra hne
  rw [if_neg hne] at hlist
  cases hlist

/-- One round: the last element of the first queue moves to the front of the second one.  When the
first queue is empty, both stay as they are. -/
def moveLast : Deque α × Deque α → Deque α × Deque α
  | (first, rest) =>
      match first.popBack? with
      | none => (first, rest)
      | some (first', x) => (first', rest.pushFront x)

theorem moveLast_of_popBack? {first first' : Deque α} {x : α}
    (h : first.popBack? = some (first', x)) (rest : Deque α) :
    moveLast (first, rest) = (first', rest.pushFront x) := by
  simp only [moveLast, h]

/-- A round moves one element, and keeps the order of all. -/
theorem toList_moveLast (queues : Deque α × Deque α) :
    (moveLast queues).1.toList ++ (moveLast queues).2.toList =
      queues.1.toList ++ queues.2.toList ∧
    (moveLast queues).1.size = queues.1.size - 1 := by
  rcases queues with ⟨first, rest⟩
  cases h : first.popBack? with
  | none =>
    have hnil : first.toList = [] := toList_eq_nil_of_popBack? h
    have hstay : moveLast (first, rest) = (first, rest) := by simp only [moveLast, h]
    rw [hstay, ← length_toList, hnil]
    exact ⟨rfl, rfl⟩
  | some popped =>
    rcases popped with ⟨first', x⟩
    have hlist : first.toList = first'.toList ++ [x] := toList_eq_of_popBack? h
    rw [moveLast_of_popBack? h, ← length_toList, ← length_toList, hlist]
    simp

/-- After any number of rounds that many elements have moved, as far as there are so many, and the
order of all is as it was. -/
theorem toList_iterate_moveLast (queues : Deque α × Deque α) (n : Nat) :
    (moveLast^[n] queues).1.toList ++ (moveLast^[n] queues).2.toList =
      queues.1.toList ++ queues.2.toList ∧
    (moveLast^[n] queues).1.size = queues.1.size - n := by
  induction n with
  | zero =>
    exact ⟨rfl, rfl⟩
  | succ n ih =>
    rcases ih with ⟨hlist, hsize⟩
    rcases toList_moveLast (moveLast^[n] queues) with ⟨hround, hless⟩
    rw [Function.iterate_succ_apply']
    exact ⟨hround.trans hlist, by omega⟩

/-- Moving a queue in front of another one takes as many rounds as it has elements. -/
theorem moveBefore_eq_iterate (first rest : Deque α) :
    first.moveBefore rest = (moveLast^[first.size] (first, rest)).2 := by
  -- The recursion takes off the first round, and `rest` grows on the way.
  fun_induction moveBefore first rest with
  | case1 first rest h =>
    have hsize : first.size = 0 := by
      rw [← length_toList, toList_eq_nil_of_popBack? h, List.length_nil]
    rw [hsize]
    rfl
  | case2 first rest first' x h ih =>
    have hsize : first.size = first'.size + 1 := by
      rw [← length_toList, ← length_toList, toList_eq_of_popBack? h, List.length_append]
      rfl
    rw [hsize, Function.iterate_succ_apply, moveLast_of_popBack? h, ih]

/-- It makes no difference which of two queues moves. -/
theorem moveBefore_eq_moveBehind (first rest : Deque α) :
    first.moveBefore rest = first.moveBehind rest := by
  ext1
  rw [toList_moveBefore, toList_moveBehind]

theorem join_eq_moveBehind (first rest : Deque α) : first.join rest = first.moveBehind rest := by
  ext1
  rw [toList_join, toList_moveBehind]

end Deque

/-! ## Queues behind a command -/

namespace Command

variable {S : Signature}

/-- What is put behind a command in one go: a link, or the links of a queue. -/
inductive Addition (S : Signature) where
  | link (l : Link S)
  | queue (rest : Deque (Link S))

/-- The links of an addition, in order. -/
def Addition.links : Addition S → List (Link S)
  | .link l => [l]
  | .queue rest => rest.toList

/-- Put an addition behind a command. -/
def add (c : Command S) : Addition S → Command S
  | .link l => c.push l
  | .queue rest => c.inherit rest

/-- A command with other links behind it. -/
def withLinks (c : Command S) (links : List (Link S)) : Command S :=
  { c with queue := .ofList links }

theorem add_eq_withLinks (c : Command S) (a : Addition S) :
    c.add a = c.withLinks (c.queue.toList ++ a.links) := by
  cases a with
  | link l =>
    have hqueue : c.queue.pushBack l = .ofList (c.queue.toList ++ [l]) := Deque.ext (by simp)
    rw [add, push, hqueue]
    rfl
  | queue rest =>
    have hqueue : c.queue.join rest = .ofList (c.queue.toList ++ rest.toList) := Deque.ext (by simp)
    rw [add, inherit, hqueue]
    rfl

/-- Additions stand behind one another in the order in which they have come. -/
theorem foldl_add (c : Command S) (additions : List (Addition S)) :
    additions.foldl add c = c.withLinks (c.queue.toList ++ additions.flatMap Addition.links) := by
  induction additions generalizing c with
  | nil =>
    simp [withLinks]
  | cons a rest ih =>
    rw [List.foldl_cons, ih, add_eq_withLinks]
    simp [withLinks]

/-- Whatever is put behind a command stands in its queue once, in the order in which it has come.

* A queue that a command inherits stands behind the command's own links.  The label and the request
  of the command stay as they are.
* The links of the command move to the front of the queue in as many rounds as there are links.
  After any number of rounds the links that are left and the queue behind them hold the same links
  in the same order as before.
* It makes no difference whether the command's links move to the front of the queue or the queue
  moves behind them, however long they are: both lead to one command.
* After any number of links and queues, in any order, the command differs only in what is behind it:
  its own links, and then those that have come, in the order of the calls. -/
theorem additions_concatenate (c : Command S) :
    (∀ rest : Deque (Link S),
      (c.inherit rest).label = c.label ∧ (c.inherit rest).request = c.request ∧
      (c.inherit rest).queue.toList = c.queue.toList ++ rest.toList) ∧
    (∀ rest : Deque (Link S),
      c.queue.moveBefore rest = (Deque.moveLast^[c.queue.size] (c.queue, rest)).2 ∧
      ∀ n, let moved := Deque.moveLast^[n] (c.queue, rest)
        moved.1.toList ++ moved.2.toList = c.queue.toList ++ rest.toList ∧
        moved.1.size = c.queue.size - n) ∧
    (∀ rest : Deque (Link S),
      { c with queue := c.queue.moveBefore rest } = c.inherit rest ∧
      { c with queue := c.queue.moveBehind rest } = c.inherit rest) ∧
    (∀ additions : List (Addition S),
      additions.foldl add c =
        c.withLinks (c.queue.toList ++ additions.flatMap Addition.links)) := by
  refine ⟨?_, ?_, ?_, ?_⟩
  · intro rest
    exact ⟨rfl, rfl, toList_queue_inherit c rest⟩
  · intro rest
    refine ⟨Deque.moveBefore_eq_iterate c.queue rest, ?_⟩
    intro n
    exact Deque.toList_iterate_moveLast (c.queue, rest) n
  · intro rest
    rw [inherit, Deque.join_eq_moveBehind, Deque.moveBefore_eq_moveBehind]
    exact ⟨rfl, rfl⟩
  · intro additions
    exact c.foldl_add additions

end Command

end Deferred
