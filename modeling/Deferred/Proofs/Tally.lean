import Deferred.Counter
import Deferred.Proofs.Run
import Mathlib.Data.List.Count
import Mathlib.Data.List.Forall2

/-!
# Tally — what a counter has counted

A count is a number of 64 bits, and handles share it with their copies.  Handles are made and
copied, hit, and put into functions that hit them on every call, in any order.  What stands behind a
handle afterwards is the number of hits through handles of its family and of calls of functions that
were tracked by one of them.

* `Counters.after` — the counts after calls, one after the other;
* `Counter.count_after` — each count has grown by the number of calls that were its own;
* `Signature.spied` — a signature whose world has counters beside it, and a list of calls;
* `Counter.Use`, `Counter.Bench` — one thing that is done with handles and functions, and those
  that there are;
* `Counter.Tally` — the families of all handles and functions, and the uses of each family;
* `Counter.Bench.Matches.run` — counts and tally agree along every sequence of uses.
-/

namespace Deferred

/-! ## Counts -/

namespace Counters

/-- How many counters were made. -/
def size (all : Counters) : Nat := all.counts.size

/-- The counts after calls of counters, in order. -/
def after (all : Counters) (calls : List Counter) : Counters :=
  calls.foldl (fun all c => c.bump all) all

/-- The counts with one more counter, which stands at zero. -/
def grown (all : Counters) : Counters := { all with counts := all.counts.push 0 }

variable (all : Counters)

@[simp] theorem size_bump (c : Counter) : (c.bump all).size = all.size :=
  Array.size_modify

@[simp] theorem size_grown : all.grown.size = all.size + 1 :=
  Array.size_push _

theorem after_append (calls more : List Counter) :
    all.after (calls ++ more) = (all.after calls).after more :=
  List.foldl_append

@[simp] theorem size_after (calls : List Counter) : (all.after calls).size = all.size := by
  induction calls generalizing all with
  | nil => rfl
  | cons c rest ih => exact (ih (c.bump all)).trans (size_bump all c)

end Counters

namespace Counter

variable (all : Counters)

theorem count_bump_self {c : Counter} (h : c.index < all.size) :
    c.count (c.bump all) = c.count all + 1 := by
  have h : c.index < all.counts.size := h
  simp only [count, bump, Array.getD_eq_getD_getElem?, Array.getElem?_modify]
  simp [h]

theorem count_bump_of_ne {c d : Counter} (h : d ≠ c) : d.count (c.bump all) = d.count all := by
  have hindex : c.index ≠ d.index := by
    intro heq
    exact h (congrArg Counter.mk heq.symm)
  simp [count, bump, Array.getD_eq_getD_getElem?, Array.getElem?_modify, hindex]

/-- A new counter stands where a counter that is not there was read. -/
theorem count_grown (c : Counter) : c.count all.grown = c.count all := by
  simp only [count, Counters.grown, Array.getD_eq_getD_getElem?, Array.getElem?_push]
  split
  · rename_i heq
    rw [heq]
    simp
  · rfl

/-- Calls count for their own counter, and start again at zero behind the largest count. -/
theorem count_after {c : Counter} (h : c.index < all.size) (calls : List Counter) :
    c.count (all.after calls) = c.count all + UInt64.ofNat (calls.count c) := by
  induction calls generalizing all with
  | nil => simp [Counters.after]
  | cons d rest ih =>
    have hrest : c.count ((d.bump all).after rest) =
        c.count (d.bump all) + UInt64.ofNat (rest.count c) :=
      ih (d.bump all) (by rwa [Counters.size_bump])
    show c.count ((d.bump all).after rest) = _
    rw [hrest]
    by_cases hd : d = c
    · subst hd
      rw [count_bump_self all h, List.count_cons_self, UInt64.ofNat_add, UInt64.add_assoc,
        UInt64.add_comm 1]
      rfl
    · rw [count_bump_of_ne all (Ne.symm hd), List.count_cons_of_ne hd]

/-- The other counters are left as they are. -/
theorem count_after_of_notMem {c : Counter} {calls : List Counter} (h : c ∉ calls) :
    c.count (all.after calls) = c.count all := by
  induction calls generalizing all with
  | nil => rfl
  | cons d rest ih =>
    rw [List.mem_cons, not_or] at h
    exact (ih (d.bump all) h.2).trans (count_bump_of_ne all h.1)

/-- Every count, if all counters that were called are there. -/
theorem count_after_all {calls : List Counter} (h : ∀ d ∈ calls, d.index < all.size)
    (c : Counter) : c.count (all.after calls) = c.count all + UInt64.ofNat (calls.count c) := by
  by_cases hc : c ∈ calls
  · exact count_after all (h c hc) calls
  · rw [count_after_of_notMem all hc, List.count_eq_zero_of_not_mem hc]
    exact (UInt64.add_zero _).symm

/-- A counter that was not made is read as zero. -/
theorem count_of_size_le {c : Counter} (h : all.size ≤ c.index) : c.count all = 0 := by
  have h : all.counts.size ≤ c.index := h
  simp [count, Array.getD_eq_getD_getElem?, h]

end Counter

/-! ## Counters beside a world -/

/-- Counters, and the calls that functions have noted by themselves. -/
structure Spy where
  counters : Counters
  calls : List Counter

/-- The same family of effects in a world with counters beside it. -/
abbrev Signature.spied (S : Signature) : Signature where
  World := S.World × Spy
  Value := S.Value
  Error := S.Error
  ResultType := S.ResultType
  Result := S.Result
  typeName := S.typeName
  Fn := S.Fn
  Cont := S.Cont
  TryCont := S.TryCont

instance (World : Type) : Counting (World × Spy) where
  counters s := s.2.counters
  modifyCounters f s := (s.1, { s.2 with counters := f s.2.counters })
  counters_modify _ _ := rfl
  modify_modify _ _ _ := rfl
  modify_id _ := rfl

variable {S : Signature}

/-- What a computation did before, with counters and calls left as they are. -/
def Spy.keep {α : Type} (x : Action S α) : Action S.spied α :=
  fun s => ((x s.1).1, ((x s.1).2, s.2))

namespace Counter

/-! ## Handles and functions -/

variable {α β : Type}

/-- One thing that is done with handles and functions, which go by their numbers. -/
inductive Use (S : Signature) (α β : Type) where
  | new
  | clone (handle : Nat)
  | hit (handle : Nat)
  | track (handle : Nat) (f : α → Action S β)
  | trackAgain (handle function : Nat)
  | call (function : Nat) (a : α)

/-- The handles and the tracked functions that there are. -/
structure Bench (S : Signature) (α β : Type) where
  handles : List Counter := []
  functions : List (α → Action S.spied β) := []

/-- Do one thing.  A number that nothing has changes nothing. -/
def Use.act (b : Bench S α β) : Use S α β → Action S.spied (Bench S α β)
  | .new => do
      let c ← create (S := S.spied)
      return { b with handles := b.handles ++ [c] }
  | .clone handle =>
      match b.handles[handle]? with
      | none => return b
      | some c => return { b with handles := b.handles ++ [c] }
  | .hit handle =>
      match b.handles[handle]? with
      | none => return b
      | some c => do
          c.record (S := S.spied)
          return b
  | .track handle f =>
      match b.handles[handle]? with
      | none => return b
      | some c =>
          let g := c.track (S := S.spied) fun a => Spy.keep (f a)
          return { b with functions := b.functions ++ [g] }
  | .trackAgain handle function =>
      match b.handles[handle]?, b.functions[function]? with
      | some c, some g =>
          return { b with functions := b.functions ++ [c.track (S := S.spied) g] }
      | _, _ => return b
  | .call function a =>
      match b.functions[function]? with
      | none => return b
      | some g => do
          let _ ← g a
          return b

/-- Do things in order. -/
def Bench.run (b : Bench S α β) : List (Use S α β) → Action S.spied (Bench S α β)
  | [] => return b
  | use :: rest => do (← use.act b).run rest

/-! ## Families -/

/-- Handles that are copies of each other are one family, and families are numbered in the order in
which they were made.  A function belongs to the families that it was tracked by.  A use of a family
is a hit, or a call of a function that belongs to it. -/
structure Tally where
  families : Nat := 0
  handles : List Nat := []
  functions : List (List Nat) := []
  uses : List Nat := []

def Use.tally (t : Tally) : Use S α β → Tally
  | .new => { t with families := t.families + 1, handles := t.handles ++ [t.families] }
  | .clone handle =>
      match t.handles[handle]? with
      | none => t
      | some i => { t with handles := t.handles ++ [i] }
  | .hit handle =>
      match t.handles[handle]? with
      | none => t
      | some i => { t with uses := t.uses ++ [i] }
  | .track handle _ =>
      match t.handles[handle]? with
      | none => t
      | some i => { t with functions := t.functions ++ [[i]] }
  | .trackAgain handle function =>
      match t.handles[handle]?, t.functions[function]? with
      | some i, some families => { t with functions := t.functions ++ [i :: families] }
      | _, _ => t
  | .call function _ =>
      match t.functions[function]? with
      | none => t
      | some families => { t with uses := t.uses ++ families }

/-- The handle of a family, if counters were there before. -/
def family (before : Counters) (i : Nat) : Counter := ⟨before.size + i⟩

/-- The function does what some function does that knows of no counters, and hits all families that
it belongs to. -/
def Belongs (before : Counters) (g : α → Action S.spied β) (families : List Nat) : Prop :=
  ∃ f : α → Action S β, ∀ a w spy, g a (w, spy) =
    ((f a w).1, ((f a w).2,
      { spy with counters := spy.counters.after (families.map (family before)) }))

/-- Handles, functions and counts are as the tally says, and the counters that were there before
have counted nothing. -/
structure Bench.Matches (before : Counters) (b : Bench S α β) (all : Counters) (t : Tally) :
    Prop where
  size : all.size = before.size + t.families
  handles : List.Forall₂ (fun c i => c = family before i) b.handles t.handles
  functions : List.Forall₂ (Belongs before) b.functions t.functions
  handles_lt : ∀ i ∈ t.handles, i < t.families
  functions_lt : ∀ families ∈ t.functions, ∀ i ∈ families, i < t.families
  count : ∀ c, c.count all = c.count before + UInt64.ofNat ((t.uses.map (family before)).count c)

/-- What related lists have at a place is related. -/
theorem related_at {γ δ : Type} {R : γ → δ → Prop} {xs : List γ} {ys : List δ}
    (h : List.Forall₂ R xs ys) (i : Nat) :
    (xs[i]? = none ∧ ys[i]? = none) ∨ ∃ x y, xs[i]? = some x ∧ ys[i]? = some y ∧ R x y := by
  induction h generalizing i with
  | nil => exact .inl ⟨rfl, rfl⟩
  | @cons x y xs ys hxy hrest ih =>
    cases i with
    | zero => exact .inr ⟨x, y, rfl, rfl, hxy⟩
    | succ i => exact ih i

namespace Bench.Matches

variable {before : Counters} {b : Bench S α β} {all : Counters} {t : Tally}

/-- Calls through handles of some families count for these. -/
theorem used (h : b.Matches before all t) {families : List Nat}
    (hlt : ∀ i ∈ families, i < t.families) :
    b.Matches before (all.after (families.map (family before)))
      { t with uses := t.uses ++ families } where
  size := by rw [Counters.size_after, h.size]
  handles := h.handles
  functions := h.functions
  handles_lt := h.handles_lt
  functions_lt := h.functions_lt
  count c := by
    -- Only a counter that is there counts its calls, and all families are there.
    have hthere : ∀ d ∈ families.map (family before), d.index < all.size := by
      intro d hd
      rcases List.mem_map.1 hd with ⟨i, hi, rfl⟩
      have hi : i < t.families := hlt i hi
      rw [h.size]
      show before.size + i < before.size + t.families
      omega
    rw [count_after_all all hthere, h.count, List.map_append, List.count_append, UInt64.ofNat_add,
      UInt64.add_assoc]

theorem belongs_track {g : α → Action S.spied β} {families : List Nat}
    (h : Belongs before g families) (i : Nat) :
    Belongs before ((family before i).track (S := S.spied) g) (i :: families) := by
  rcases h with ⟨f, hf⟩
  exact ⟨f, fun a w spy => hf a w _⟩

theorem belongs_keep (f : α → Action S β) :
    Belongs before (fun a => Spy.keep (f a)) [] :=
  ⟨f, fun _ _ _ => rfl⟩

/-- One more function, of families that are there. -/
theorem tracked (h : b.Matches before all t) {g : α → Action S.spied β} {families : List Nat}
    (hg : Belongs before g families) (hlt : ∀ i ∈ families, i < t.families) :
    { b with functions := b.functions ++ [g] }.Matches before all
      { t with functions := t.functions ++ [families] } where
  size := h.size
  handles := h.handles
  functions := List.rel_append h.functions (.cons hg .nil)
  handles_lt := h.handles_lt
  functions_lt := by
    intro families' hmem
    rcases List.mem_append.1 hmem with hmem | hmem
    · exact h.functions_lt families' hmem
    · cases List.mem_singleton.1 hmem
      exact hlt
  count := h.count

theorem copied (h : b.Matches before all t) {i : Nat} (hi : i < t.families) :
    { b with handles := b.handles ++ [family before i] }.Matches before all
      { t with handles := t.handles ++ [i] } where
  size := h.size
  handles := List.rel_append h.handles (.cons rfl .nil)
  functions := h.functions
  handles_lt := by
    intro j hj
    rcases List.mem_append.1 hj with hj | hj
    · exact h.handles_lt j hj
    · cases List.mem_singleton.1 hj
      exact hi
  functions_lt := h.functions_lt
  count := h.count

/-- One more family. -/
theorem grown (h : b.Matches before all t) :
    b.Matches before all.grown { t with families := t.families + 1 } where
  size := by rw [Counters.size_grown, h.size, Nat.add_assoc]
  handles := h.handles
  functions := h.functions
  handles_lt i hi := Nat.lt_succ_of_lt (h.handles_lt i hi)
  functions_lt families hmem i hi := Nat.lt_succ_of_lt (h.functions_lt families hmem i hi)
  count c := by rw [count_grown, h.count]

/-- One thing that is done. -/
theorem act {spy : Spy} (h : b.Matches before spy.counters t) (use : Use S α β) (w : S.World) :
    (use.act b (w, spy)).1.Matches before (use.act b (w, spy)).2.2.counters (use.tally t) := by
  cases use with
  | new =>
    -- The handle that is made is the one of the next family.
    have hnew : family before t.families = ⟨spy.counters.size⟩ := by
      rw [h.size]
      rfl
    have hgrown := h.grown.copied (Nat.lt_succ_self t.families)
    rw [hnew] at hgrown
    exact hgrown
  | clone handle =>
    rcases related_at h.handles handle with ⟨hb, ht⟩ | ⟨c, i, hb, ht, rfl⟩
    · simp only [Use.act, Use.tally, hb, ht]
      exact h
    · simp only [Use.act, Use.tally, hb, ht]
      exact h.copied (h.handles_lt i (List.mem_of_getElem? ht))
  | hit handle =>
    rcases related_at h.handles handle with ⟨hb, ht⟩ | ⟨c, i, hb, ht, rfl⟩
    · simp only [Use.act, Use.tally, hb, ht]
      exact h
    · simp only [Use.act, Use.tally, hb, ht]
      exact h.used fun j hj => List.mem_singleton.1 hj ▸ h.handles_lt i (List.mem_of_getElem? ht)
  | track handle f =>
    rcases related_at h.handles handle with ⟨hb, ht⟩ | ⟨c, i, hb, ht, rfl⟩
    · simp only [Use.act, Use.tally, hb, ht]
      exact h
    · simp only [Use.act, Use.tally, hb, ht]
      exact h.tracked (belongs_track (belongs_keep f) i) fun j hj =>
        List.mem_singleton.1 hj ▸ h.handles_lt i (List.mem_of_getElem? ht)
  | trackAgain handle function =>
    rcases related_at h.handles handle with ⟨hb, ht⟩ | ⟨c, i, hb, ht, rfl⟩
    · simp only [Use.act, Use.tally, hb, ht]
      exact h
    · rcases related_at h.functions function with ⟨hb', ht'⟩ | ⟨g, families, hb', ht', hg⟩
      · simp only [Use.act, Use.tally, hb, ht, hb', ht']
        exact h
      · simp only [Use.act, Use.tally, hb, ht, hb', ht']
        refine h.tracked (belongs_track hg i) fun j hj => ?_
        rcases List.mem_cons.1 hj with rfl | hj
        · exact h.handles_lt j (List.mem_of_getElem? ht)
        · exact h.functions_lt families (List.mem_of_getElem? ht') j hj
  | call function a =>
    -- The value of the call is dropped; what it did to the counts is said by `Belongs`.
    rcases related_at h.functions function with ⟨hb, ht⟩ | ⟨g, families, hb, ht, f, hf⟩
    · simp only [Use.act, Use.tally, hb, ht]
      exact h
    · simp only [Use.act, Use.tally, hb, ht, Action.bind_apply, hf]
      exact h.used (h.functions_lt families (List.mem_of_getElem? ht))

/-- Whatever is done, in any order. -/
theorem run {spy : Spy} (h : b.Matches before spy.counters t) (uses : List (Use S α β))
    (w : S.World) :
    (b.run uses (w, spy)).1.Matches before (b.run uses (w, spy)).2.2.counters
      (uses.foldl Use.tally t) := by
  induction uses generalizing b spy t w with
  | nil => exact h
  | cons use rest ih => exact ih (h.act use w) _

theorem start (before : Counters) : ({} : Bench S α β).Matches before before {} where
  size := rfl
  handles := .nil
  functions := .nil
  handles_lt := nofun
  functions_lt := nofun
  count _ := (UInt64.add_zero _).symm

end Bench.Matches

/-- Through every handle the uses of its family are read, up to a multiple of 2^64, and the
counters that were there before are read as before. -/
theorem Bench.run_counts (before : Counters) (calls : List Counter) (uses : List (Use S α β))
    (w : S.World) :
    let last := ({} : Bench S α β).run uses (w, ⟨before, calls⟩)
    let t : Tally := uses.foldl Use.tally {}
    (∀ (handle i : Nat), t.handles[handle]? = some i → ∃ c, last.1.handles[handle]? = some c ∧
      (c.count last.2.2.counters).toNat = t.uses.count i % UInt64.size) ∧
    ∀ c : Counter, c.index < before.size → c.count last.2.2.counters = c.count before := by
  intro last t
  let spy : Spy := ⟨before, calls⟩
  have hstart : ({} : Bench S α β).Matches before spy.counters {} := .start before
  have h : last.1.Matches before last.2.2.counters t := hstart.run uses w
  -- Different families have different counters, so no use of another family is counted.
  have hinjective : Function.Injective (family before) := by
    intro i j hij
    have hindex : before.size + i = before.size + j := congrArg Counter.index hij
    omega
  constructor
  · -- The families were made after `before`, where their counters are read as zero.
    intro handle i hi
    rcases related_at h.handles handle with ⟨-, ht⟩ | ⟨c, j, hb, ht, rfl⟩
    · cases hi.symm.trans ht
    · cases Option.some.inj (hi.symm.trans ht)
      refine ⟨_, hb, ?_⟩
      have hzero : (family before i).count before = 0 :=
        count_of_size_le before (Nat.le_add_right _ _)
      rw [h.count, hzero, List.count_map_of_injective _ _ hinjective, UInt64.zero_add]
      exact UInt64.toNat_ofNat'
  · intro c hc
    have hnone : c ∉ t.uses.map (family before) := by
      intro hmem
      rcases List.mem_map.1 hmem with ⟨i, -, rfl⟩
      exact absurd hc (Nat.not_lt.2 (Nat.le_add_right _ _))
    rw [h.count, List.count_eq_zero_of_not_mem hnone]
    exact UInt64.add_zero _

end Counter

end Deferred
