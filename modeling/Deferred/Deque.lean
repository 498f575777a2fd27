/-!
# Deque — a queue that is open at both ends

A queue of pending work is pushed at its back while it is built, popped at its front while it
is worked off, and joined with the queue of whoever inherits it.  This file defines:

* `Deque.Halves α` — how a queue is held: a front half in order, a back half in reverse, and the
  number of elements;
* `Deque α` — queues, equal exactly when they hold the same elements in the same order;
* `Deque.toList` — the elements from front to back, the view every operation is stated in;
* `pushBack`, `pushFront`, `popFront?`, `popBack?` — constant time, the pops amortised;
* `Deque.join` — one queue after another, moving whichever of the two is shorter.
-/

namespace Deferred

namespace Deque

/-! ## Halves -/

/-- Two lists that meet in the middle.  `size` is kept beside them, so that comparing two queues
for length costs nothing. -/
structure Halves (α : Type) where
  front : List α
  backReversed : List α
  size : Nat
  size_eq : size = front.length + backReversed.length

namespace Halves

variable {α : Type}

/-- The elements from front to back. -/
def toList (q : Halves α) : List α :=
  q.front ++ q.backReversed.reverse

theorem length_toList (q : Halves α) : q.toList.length = q.size := by
  simp [toList, q.size_eq]

/-- All elements in the front half. -/
def ofList (xs : List α) : Halves α where
  front := xs
  backReversed := []
  size := xs.length
  size_eq := by simp

/-- Add an element behind all others. -/
def pushBack (q : Halves α) (x : α) : Halves α where
  front := q.front
  backReversed := x :: q.backReversed
  size := q.size + 1
  size_eq := by simp [q.size_eq, Nat.add_assoc]

/-- Add an element in front of all others. -/
def pushFront (q : Halves α) (x : α) : Halves α where
  front := x :: q.front
  backReversed := q.backReversed
  size := q.size + 1
  size_eq := by simp [q.size_eq, Nat.add_right_comm]

/-- The first element and what is behind it.  When the front half has run out, the back half is
turned round once and becomes the front half. -/
def popFront? (q : Halves α) : Option (α × Halves α) :=
  match q with
  | ⟨x :: rest, back, size, h⟩ =>
      some (x, ⟨rest, back, size - 1, by simp at h; omega⟩)
  | ⟨[], back, size, h⟩ =>
      match hb : back.reverse with
      | [] => none
      | x :: rest =>
          some (x, ⟨rest, [], size - 1, by
            have := congrArg List.length hb
            simp at h this ⊢
            omega⟩)

/-- The last element and what is before it. -/
def popBack? (q : Halves α) : Option (Halves α × α) :=
  match q with
  | ⟨front, x :: rest, size, h⟩ =>
      some (⟨front, rest, size - 1, by simp at h; omega⟩, x)
  | ⟨front, [], size, h⟩ =>
      match hf : front.reverse with
      | [] => none
      | x :: rest =>
          some (⟨[], rest, size - 1, by
            have := congrArg List.length hf
            simp at h this ⊢
            omega⟩, x)

theorem toList_ofList (xs : List α) : (ofList xs).toList = xs := by
  simp [toList, ofList]

theorem toList_pushBack (q : Halves α) (x : α) : (q.pushBack x).toList = q.toList ++ [x] := by
  simp [toList, pushBack]

theorem toList_pushFront (q : Halves α) (x : α) : (q.pushFront x).toList = x :: q.toList := by
  simp [toList, pushFront]

theorem toList_popFront? (q : Halves α) :
    q.popFront?.map (fun (x, rest) => x :: rest.toList) =
      if q.toList = [] then none else some q.toList := by
  obtain ⟨front, back, size, hs⟩ := q
  cases front with
  | cons x rest => simp [popFront?, toList]
  | nil =>
      simp only [popFront?, toList, List.nil_append]
      split
      · rename_i hb
        simp [hb]
      · rename_i x rest hb
        simp [hb]

theorem toList_popBack? (q : Halves α) :
    q.popBack?.map (fun (rest, x) => rest.toList ++ [x]) =
      if q.toList = [] then none else some q.toList := by
  obtain ⟨front, back, size, hs⟩ := q
  cases back with
  | cons x rest => simp [popBack?, toList]
  | nil =>
      simp only [popBack?, toList, List.reverse_nil, List.append_nil]
      split
      · rename_i hf
        simp [List.reverse_eq_nil_iff.1 hf]
      · rename_i x rest hf
        have : front = rest.reverse ++ [x] := by
          rw [← List.reverse_reverse front, hf, List.reverse_cons]
        simp [this]

/-- Halves that hold the same elements in the same order. -/
def Same (a b : Halves α) : Prop := a.toList = b.toList

end Halves

end Deque

/-! ## Queues -/

/-- A queue.  Where its two halves meet cannot be seen. -/
def Deque (α : Type) : Type := Quot (Deque.Halves.Same (α := α))

namespace Deque

variable {α : Type}

/-- The elements from front to back. -/
def toList (q : Deque α) : List α :=
  Quot.lift Halves.toList (fun _ _ h => h) q

@[ext] theorem ext {a b : Deque α} (h : a.toList = b.toList) : a = b := by
  induction a using Quot.ind
  induction b using Quot.ind
  exact Quot.sound h

/-- The number of elements. -/
def size (q : Deque α) : Nat :=
  Quot.lift Halves.size
    (fun a b h => by rw [← a.length_toList, ← b.length_toList, show a.toList = b.toList from h]) q

@[simp] theorem length_toList (q : Deque α) : q.toList.length = q.size := by
  induction q using Quot.ind
  exact Halves.length_toList _

/-! ## Building -/

/-- The queue that holds a list, first element in front. -/
def ofList (xs : List α) : Deque α := Quot.mk _ (Halves.ofList xs)

/-- The queue without elements. -/
def empty : Deque α := ofList []

instance : EmptyCollection (Deque α) := ⟨empty⟩
instance : Inhabited (Deque α) := ⟨empty⟩

/-- Add an element behind all others. -/
def pushBack (q : Deque α) (x : α) : Deque α :=
  Quot.lift (fun (h : Halves α) => Quot.mk _ (h.pushBack x))
    (fun (a b : Halves α) (h : a.toList = b.toList) => Quot.sound (by
      simp [Halves.Same, Halves.toList_pushBack, h])) q

/-- Add an element in front of all others. -/
def pushFront (q : Deque α) (x : α) : Deque α :=
  Quot.lift (fun (h : Halves α) => Quot.mk _ (h.pushFront x))
    (fun (a b : Halves α) (h : a.toList = b.toList) => Quot.sound (by
      simp [Halves.Same, Halves.toList_pushFront, h])) q

@[simp] theorem toList_ofList (xs : List α) : (ofList xs).toList = xs :=
  Halves.toList_ofList xs

@[simp] theorem toList_empty : (empty : Deque α).toList = [] := toList_ofList []

@[simp] theorem ofList_toList (q : Deque α) : ofList q.toList = q :=
  ext (toList_ofList _)

@[simp] theorem toList_pushBack (q : Deque α) (x : α) :
    (q.pushBack x).toList = q.toList ++ [x] := by
  induction q using Quot.ind
  exact Halves.toList_pushBack _ x

@[simp] theorem toList_pushFront (q : Deque α) (x : α) :
    (q.pushFront x).toList = x :: q.toList := by
  induction q using Quot.ind
  exact Halves.toList_pushFront _ x

/-! ## Taking apart -/

/-- The first element and the queue behind it. -/
def popFront? (q : Deque α) : Option (α × Deque α) :=
  Quot.lift (fun (h : Halves α) => h.popFront?.map fun (x, rest) => (x, Quot.mk _ rest))
    (fun (a b : Halves α) (h : a.toList = b.toList) => by
      have ha := a.toList_popFront?
      have hb := b.toList_popFront?
      rw [h, ← hb] at ha
      match hx : a.popFront?, hy : b.popFront? with
      | none, none => rfl
      | some _, none => simp [hx, hy] at ha
      | none, some _ => simp [hx, hy] at ha
      | some (x, r), some (y, s) =>
          simp only [hx, hy, Option.map_some, Option.some.injEq, List.cons.injEq] at ha
          obtain ⟨rfl, hr⟩ := ha
          exact congrArg (fun rest => some (x, rest)) (Quot.sound hr)) q

/-- The last element and the queue before it. -/
def popBack? (q : Deque α) : Option (Deque α × α) :=
  Quot.lift (fun (h : Halves α) => h.popBack?.map fun (rest, x) => (Quot.mk _ rest, x))
    (fun (a b : Halves α) (h : a.toList = b.toList) => by
      have ha := a.toList_popBack?
      have hb := b.toList_popBack?
      rw [h, ← hb] at ha
      match hx : a.popBack?, hy : b.popBack? with
      | none, none => rfl
      | some _, none => simp [hx, hy] at ha
      | none, some _ => simp [hx, hy] at ha
      | some (r, x), some (s, y) =>
          simp only [hx, hy, Option.map_some, Option.some.injEq] at ha
          have ha := List.append_inj' ha rfl
          simp only [List.cons.injEq, and_true] at ha
          obtain ⟨hr, rfl⟩ := ha
          exact congrArg (fun rest => some (rest, x)) (Quot.sound hr)) q

theorem toList_popFront? (q : Deque α) :
    q.popFront?.map (fun (x, rest) => x :: rest.toList) =
      if q.toList = [] then none else some q.toList := by
  induction q using Quot.ind with
  | mk h =>
      show Option.map _ (Option.map _ h.popFront?) = _
      rw [Option.map_map]
      exact h.toList_popFront?

theorem toList_popBack? (q : Deque α) :
    q.popBack?.map (fun (rest, x) => rest.toList ++ [x]) =
      if q.toList = [] then none else some q.toList := by
  induction q using Quot.ind with
  | mk h =>
      show Option.map _ (Option.map _ h.popBack?) = _
      rw [Option.map_map]
      exact h.toList_popBack?

@[simp] theorem popFront?_ofList_nil : (ofList ([] : List α)).popFront? = none := by
  have := toList_popFront? (ofList ([] : List α))
  simpa using this

@[simp] theorem popFront?_ofList_cons (x : α) (xs : List α) :
    (ofList (x :: xs)).popFront? = some (x, ofList xs) := by
  have := toList_popFront? (ofList (x :: xs))
  simp only [toList_ofList, reduceCtorEq, ↓reduceIte, Option.map_eq_some_iff] at this
  obtain ⟨⟨y, rest⟩, h, hy⟩ := this
  simp only [List.cons.injEq] at hy
  rw [h, hy.1, ← hy.2, ofList_toList]

@[simp] theorem popBack?_ofList_nil : (ofList ([] : List α)).popBack? = none := by
  have := toList_popBack? (ofList ([] : List α))
  simpa using this

@[simp] theorem popBack?_ofList_concat (xs : List α) (x : α) :
    (ofList (xs ++ [x])).popBack? = some (ofList xs, x) := by
  have := toList_popBack? (ofList (xs ++ [x]))
  simp only [toList_ofList, List.append_eq_nil_iff, List.cons_ne_self, and_false, ↓reduceIte,
    Option.map_eq_some_iff] at this
  obtain ⟨⟨rest, y⟩, h, hy⟩ := this
  have hy := List.append_inj' hy rfl
  simp only [List.cons.injEq, and_true] at hy
  rw [h, hy.2, ← hy.1, ofList_toList]

theorem toList_eq_of_popFront? {q rest : Deque α} {x : α} (h : q.popFront? = some (x, rest)) :
    q.toList = x :: rest.toList := by
  have := toList_popFront? q
  rw [h] at this
  simp only [Option.map_some] at this
  split at this <;> simp_all

theorem toList_eq_of_popBack? {q rest : Deque α} {x : α} (h : q.popBack? = some (rest, x)) :
    q.toList = rest.toList ++ [x] := by
  have := toList_popBack? q
  rw [h] at this
  simp only [Option.map_some] at this
  split at this <;> simp_all

theorem size_lt_of_popFront? {q rest : Deque α} {x : α} (h : q.popFront? = some (x, rest)) :
    rest.size < q.size := by
  rw [← length_toList, ← length_toList, toList_eq_of_popFront? h]
  exact Nat.lt_succ_self _

theorem size_lt_of_popBack? {q rest : Deque α} {x : α} (h : q.popBack? = some (rest, x)) :
    rest.size < q.size := by
  rw [← length_toList, ← length_toList, toList_eq_of_popBack? h, List.length_append]
  exact Nat.lt_succ_self _

/-! ## Joining -/

/-- Move the elements of `first` in front of `rest`, last one first. -/
def moveBefore (first rest : Deque α) : Deque α :=
  match _h : first.popBack? with
  | none => rest
  | some (first', x) => moveBefore first' (rest.pushFront x)
termination_by first.size
decreasing_by exact size_lt_of_popBack? _h

/-- Move the elements of `rest` behind `first`, first one first. -/
def moveBehind (first rest : Deque α) : Deque α :=
  rest.toList.foldl pushBack first

/-- The elements of `first`, then those of `rest`.  The shorter queue is the one that moves. -/
def join (first rest : Deque α) : Deque α :=
  if first.size ≤ rest.size then moveBefore first rest else moveBehind first rest

theorem toList_moveBefore (first rest : Deque α) :
    (moveBefore first rest).toList = first.toList ++ rest.toList := by
  fun_induction moveBefore first rest with
  | case1 first rest h =>
      have := toList_popBack? first
      rw [h] at this
      split at this <;> simp_all
  | case2 first rest first' x h ih => simp [ih, toList_eq_of_popBack? h]

theorem toList_moveBehind (first rest : Deque α) :
    (moveBehind first rest).toList = first.toList ++ rest.toList := by
  unfold moveBehind
  generalize rest.toList = xs
  induction xs generalizing first with
  | nil => simp
  | cons x xs ih => simp [ih]

@[simp] theorem toList_join (first rest : Deque α) :
    (first.join rest).toList = first.toList ++ rest.toList := by
  unfold join
  split
  · exact toList_moveBefore first rest
  · exact toList_moveBehind first rest

end Deque

end Deferred
