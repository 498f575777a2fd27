import Deferred.Proofs.Numbered
import Deferred.Proofs.RunLaws

/-!
# Invoked — a run invokes every operation at most once, and nothing else invokes any

With numbered operations a run writes the numbers down in the order in which it invokes them.

* `Command.tracks_advance` — one command of a run writes down its own number;
* `Interpreter.tracks_runFor` — the numbers of a run ascend;
* `Interpreter.operations_unseen_until_run` — before a run operations are neither invoked nor seen,
  and in it each of them is invoked once at most.
-/

namespace Deferred

open Ledger

variable {S : Signature} {base : Nat} {noted : List Nat}

/-! ## Runs -/

/-- Where a command leads to, and the same with a number. -/
inductive Advance.Numbered (base : Nat) (noted : List Nat) :
    Advance S → Advance S.numbered → Ledger → Prop where
  | next {e : Effect S} {e' : Effect S.numbered} {ledger : Ledger}
      (h : e.Numbered base noted e' ledger) : Numbered base noted (.next e) (.next e') ledger
  | fault (phase : Phase) (error : S.Error) {ledger : Ledger} (h : ledger.Stands base noted) :
      Numbered base noted (.fault phase error) (.fault phase error) ledger

/-- A command of a run writes down its own number, and what it leads to has a later one. -/
theorem Command.tracks_advance (M : Meaning S) (c : Command S) (n : Nat) :
    Tracks (Stands (n + 1) noted) (Advance.Numbered (n + 1) (noted ++ [n])) (c.advance M)
      ((c.numbered n).advance M.numbered) := by
  unfold Command.advance
  simp only [Command.numbered, bind_assoc]
  -- The number is written down first, and everything behind it leaves the ledger's list as it is.
  refine .note_bind (.keep_bind c.request.operation fun answer => ?_)
  cases answer with
  | error error =>
    refine (passError_tracks error c.queue).bind fun _ _ => .pure fun _ herror => ?_
    exact herror.1 ▸ .fault .operation _ herror.2
  | ok result =>
    refine (Continuation.tracks_apply M c.request.continuation result).bind fun _ _ => ?_
    intro w ledger happly
    cases happly with
    | fault error h =>
      refine ((passError_tracks error c.queue).bind fun _ _ => .pure fun _ herror => ?_) w ledger h
      exact herror.1 ▸ .fault .continuation _ herror.2
    | @value e e' _ h =>
      exact ((Effect.tracks_pass M c.queue e e').map fun _ _ _ hnext => .next hnext) w ledger h

/-- Behind the numbers in `noted`, those in `more` were written down.  They ascend, and none of
them is below `base`. -/
structure Ledger.Ascends (base : Nat) (noted more : List Nat) (ledger : Ledger) : Prop where
  invoked : ledger.invoked = noted ++ more
  ascending : more.Pairwise (· < ·)
  above : ∀ n ∈ more, base ≤ n

namespace Ledger.Ascends

theorem nil {ledger : Ledger} (h : ledger.Stands base noted) : ledger.Ascends base noted [] :=
  ⟨by rw [h.invoked, List.append_nil], .nil, nofun⟩

theorem cons {n : Nat} {more : List Nat} {ledger : Ledger}
    (h : ledger.Ascends (n + 1) (noted ++ [n]) more) (hn : base ≤ n) :
    ledger.Ascends base noted (n :: more) := by
  constructor
  · rw [h.invoked, List.append_assoc, List.singleton_append]
  · exact List.pairwise_cons.2 ⟨h.above, h.ascending⟩
  · intro m hm
    rcases List.mem_cons.1 hm with rfl | hm
    · exact hn
    · exact Nat.le_of_succ_le (Nat.le_trans (Nat.succ_le_succ hn) (h.above m hm))

end Ledger.Ascends

/-- A run beside a ledger comes to the same end, or to none within the limit either.  What it has
written down ascends, and a record that is kept has one label for every number. -/
def Finished.Numbered (base : Nat) (noted : List Nat) (trace : Option Trace)
    (f : Option (Finished S)) (f' : Option (Finished S.numbered)) (ledger : Ledger) : Prop :=
  f' = f.map Finished.numbered ∧ ∃ more, ledger.Ascends base noted more ∧
    ∀ t₀ r t, trace = some t₀ → f = some ⟨r, some t⟩ → t.size = t₀.size + more.length

/-- An outcome is the end of a run, and nothing is written down. -/
theorem Finished.Numbered.outcome {ledger : Ledger} (h : ledger.Stands base noted)
    (result : Except S.Error S.Value) (trace : Option Trace) :
    Finished.Numbered (S := S) base noted trace (some ⟨result, trace⟩) (some ⟨result, trace⟩)
      ledger := by
  refine ⟨rfl, [], .nil h, ?_⟩
  rintro t₀ r t ⟨⟩ ⟨⟩
  rfl

namespace Interpreter

theorem tracks_runFor (I : Interpreter S) (span : Option String) (limit : Nat) (e : Effect S)
    (e' : Effect S.numbered) (trace : Option Trace) :
    Tracks (e.Numbered base noted e') (Finished.Numbered base noted trace)
      (I.runFor span limit e trace) (I.numbered.runFor span limit e' trace) := by
  induction limit generalizing base noted e e' trace with
  | zero =>
    intro w ledger h
    cases h with
    | success value h =>
      exact ⟨rfl, .outcome h (.ok value) trace⟩
    | failure error h =>
      exact ⟨rfl, .outcome h (.error error) trace⟩
    | command c h hbase hgiven =>
      exact ⟨rfl, rfl, [], .nil h, nofun⟩
  | succ limit ih =>
    intro w ledger h
    cases h with
    | success value h =>
      exact ⟨rfl, .outcome h (.ok value) trace⟩
    | failure error h =>
      exact ⟨rfl, .outcome h (.error error) trace⟩
    | @command c n _ h hbase hgiven =>
      have hrun : Tracks (Stands (n + 1) noted) (Finished.Numbered base noted trace)
          (I.runFor span (limit + 1) (.command c) trace)
          (I.numbered.runFor span (limit + 1) (.command (c.numbered n)) trace) := by
        refine .keep_bind (I.observe ⟨span, .running c.label⟩) fun _ => ?_
        refine (c.tracks_advance I.meaning n).bind fun a a' => ?_
        intro w ledger hadvance
        cases hadvance with
        | @next e e' _ h =>
          -- What was written down before the rest of the run now ends with the number `n`.
          rcases ih e e' (trace.map (·.push c.label)) w ledger h with
            ⟨hworld, hfinished, more, hmore, hsize⟩
          refine ⟨hworld, hfinished, n :: more, hmore.cons hbase, ?_⟩
          rintro t₀ r t rfl hend
          have hpush : (t₀.push c.label).size = t₀.size + 1 := Array.size_push _
          rw [hsize _ r t rfl hend, hpush, List.length_cons]
          exact Nat.add_right_comm _ _ _
        | fault phase error h =>
          have hone := (Ledger.Ascends.nil h).cons hbase
          refine ⟨rfl, rfl, [n], hone, ?_⟩
          rintro t₀ r t rfl ⟨⟩
          exact Array.size_push _
      exact hrun w ledger ⟨hgiven, h.invoked⟩

end Interpreter

/-! ## Before a run, and in it -/

theorem Effect.Numbered.zero (e : Effect S) : e.Numbered 0 [] (e.numbered 0) .start := by
  have hstart : Ledger.start.Stands 0 [] := ⟨Nat.zero_le _, rfl⟩
  cases e with
  | success value =>
    exact .success value hstart
  | failure error =>
    exact .failure error hstart
  | command c =>
    exact .command c hstart (Nat.le_refl 0) Nat.one_pos

namespace Interpreter

/-- Operations are not seen before a run, and a run invokes each of them once at most.

Let the names have two meanings that differ in the operations of the effects only, and take two
effects that differ in their operations only.

* Whatever is done with both in order, short of a run, the answers are the same, the world is left
  the same, also where functions write down in it how they are called, and the effects that come
  of it differ in their operations only.
* So do the effects that a pipeline builds.
* If every operation notes its own number when it is invoked, then whatever is done with an effect
  short of a run, and whatever a pipeline builds, nothing is noted, and all else is as it was.
* And a run, whether it ends within its limit or not, notes every number once at most: they ascend.
  If it ends and keeps a record, it has noted as many as the record has labels. -/
theorem operations_unseen_until_run [BEq S.Value] [BEq S.Error] {M M' : Meaning S}
    (hM : M.UpToOperations M') :
    (∀ {a b : Effect S}, a.UpToOperations b → ∀ {hs hs' : List (Handling S)},
      List.Forall₂ Handling.UpToOperations hs hs' →
      Action.Alike Effect.SameAnswers (a.handle M hs) (b.handle M' hs')) ∧
    (∀ (p : Pipeline S) (start : S.Value),
      Action.Alike Effect.UpToOperations (p.run M start) (p.run M' start)) ∧
    (∀ (N : Meaning S) (e : Effect S) (hs : List (Handling S)) (w : S.World),
      let plain := e.handle N hs w
      let noted := (e.numbered 0).handle N.numbered (hs.map Handling.numbered) (w, .start)
      noted.1.1 = plain.1.1 ∧ noted.2.1 = plain.2 ∧ noted.2.2.invoked = []) ∧
    (∀ (N : Meaning S) (p : Pipeline S) (start : S.Value) (w : S.World),
      let noted := p.numbered.run N.numbered start (w, .start)
      noted.2.1 = (p.run N start w).2 ∧ noted.2.2.invoked = []) ∧
    (∀ (I : Interpreter S) (span : Option String) (limit : Nat) (e : Effect S)
      (trace : Option Trace) (w : S.World),
      let plain := I.runFor span limit e trace w
      let noted := I.numbered.runFor span limit (e.numbered 0) trace (w, .start)
      noted.1 = plain.1.map Finished.numbered ∧ noted.2.1 = plain.2 ∧
        noted.2.2.invoked.Pairwise (· < ·) ∧
        ∀ r t, trace = some .empty → plain.1 = some ⟨r, some t⟩ →
          noted.2.2.invoked.length = t.size) := by
  refine ⟨?_, ?_, ?_, ?_, ?_⟩
  · intro a b hab hs hs' hhs
    exact hab.handle hM hhs
  · intro p start
    exact Step.upToOperations_runAll hM p.toList (.success start)
  · intro N e hs w
    rcases Effect.tracks_handle N hs e (e.numbered 0) w .start (.zero e) with
      ⟨hworld, hanswers, hnext⟩
    exact ⟨hanswers, hworld, hnext.stands.invoked⟩
  · intro N p start w
    have hstart : Ledger.start.Stands 0 [] := ⟨Nat.zero_le _, rfl⟩
    rw [Pipeline.run, Pipeline.run, Pipeline.numbered, Pipeline.toList_ofList]
    rcases Step.tracks_runAll N p.toList _ _ w .start (.success start hstart) with
      ⟨hworld, hnext⟩
    exact ⟨hworld, hnext.stands.invoked⟩
  · intro I span limit e trace w
    rcases I.tracks_runFor span limit e (e.numbered 0) trace w .start (.zero e) with
      ⟨hworld, hfinished, more, hmore, hsize⟩
    have hinvoked := hmore.invoked
    rw [List.nil_append] at hinvoked
    refine ⟨hfinished, hworld, hinvoked ▸ hmore.ascending, ?_⟩
    intro r t htrace hend
    have hcount := hsize .empty r t htrace hend
    rw [hinvoked, hcount]
    exact (Nat.zero_add _).symm

/-! ## A diary whose operations are out of order -/

namespace Diary

/-- A request like that of `ask`.  Its operation answers an error and writes nothing down. -/
def unanswered (label : Label) (n : Nat) (queue : List (Link signature)) : Command signature where
  label := label
  request := ⟨(), return .error n, .fallible ()⟩
  queue := .ofList queue

/-- The steps of the diary with such operations. -/
def outOfOrder : Meaning signature :=
  { interpreter.meaning with
    call := fun label (n : Nat) => do
      write (.called n)
      return .command (unanswered label n []) }

theorem upToOperations_ask (label : Label) (n : Nat) (queue : List (Link signature)) :
    (Effect.command (ask label n queue)).UpToOperations (.command (unanswered label n queue)) :=
  .command label _ _ _ _

theorem upToOperations_outOfOrder : interpreter.meaning.UpToOperations outOfOrder := by
  constructor
  · intro label n w
    exact ⟨upToOperations_ask label n [], rfl⟩
  · exact nofun
  · intro _ _ n
    refine .of_eq (fun outcome => ?_) rfl
    cases outcome with
    | ok e =>
      exact .value (.refl e)
    | error error =>
      exact .fault error

end Diary

open Diary in
/-- Two operations are asked for one after the other, and both are supplied by hand.  Whether the
operations work is only seen in a run, which invokes both of them. -/
theorem operations_unseen_until_run_twice :
    let hs : List (Handling signature) :=
      [.label, .resume () (7 : Nat), .label, .resume () (7 : Nat), .outcome]
    Action.Alike Effect.SameAnswers ((twice 7).handle interpreter.meaning hs)
      (Effect.handle outOfOrder hs (.command (unanswered first 7 [.onSuccess (.call second)]))) ∧
    (interpreter.numbered.runFor none 2 ((twice 7).numbered 0) (some .empty)
      ([], .start)).2.2.invoked.length = 2 := by
  have hunseen := operations_unseen_until_run upToOperations_outOfOrder
  constructor
  · exact hunseen.1 (upToOperations_ask first 7 _) (List.forall₂_same.2 fun h _ => .same h)
  · rcases ends_iff_run.1 ends_twice with ⟨diary, hrun, -⟩
    have hend := hrun.runFor_of_le (Nat.le_refl 2) .empty
    rw [Trace.empty_append] at hend
    have hinvoked := hunseen.2.2.2.2 interpreter none 2 (twice 7) (some .empty) []
    exact hinvoked.2.2.2 _ _ rfl (congrArg Prod.fst hend)

end Interpreter

end Deferred
