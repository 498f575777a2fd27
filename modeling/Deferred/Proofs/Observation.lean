import Deferred.Proofs.Blocks
import Deferred.Runtime

/-!
# Observation — a run is the same whoever looks on

A run may keep a record, block the thread it is on, be made by an interpreter of its own, or lie
inside a span.  None of this changes its result, what it does to the world, or which functions it
calls in which order.  All that a span changes is the span of the events.

* `Interpreter.inside` — the interpreter whose events are moved into a span;
* `Way.run_eq` — every way to have an effect run is a plain run in the span of the way;
* `Interpreter.Overlooks` — nothing depends on the span of an event;
* `Interpreter.runFor_journaled` — the lines that a run writes into a journal, in any span;
* `Way.observation_inert` — all ways have one result, one effect on the world, and these lines.
-/

namespace Deferred

open Journal

variable {S : Signature}

namespace Interpreter

/-! ## Events in a span -/

/-- The interpreter whose events are moved into a span before they are looked at. -/
def inside (I : Interpreter S) (span : Option String) : Interpreter S where
  meaning := I.meaning
  observe event := I.observe { event with span }

/-- A run in a span has its events moved into this span, and differs in nothing else. -/
theorem runFor_inside (I : Interpreter S) (span around : Option String) (limit : Nat)
    (e : Effect S) (trace : Option Trace) :
    (I.inside span).runFor around limit e trace = I.runFor span limit e trace := by
  induction limit generalizing e trace with
  | zero =>
    cases e <;> rfl
  | succ limit ih =>
    cases e with
    | success value =>
      rfl
    | failure error =>
      rfl
    | command c =>
      -- The announcement is moved by definition; what is left is the rest of the run.
      simp only [runFor]
      refine bind_congr fun _ => bind_congr fun a => ?_
      cases a with
      | next e => exact ih e _
      | fault phase error => rfl

theorem running_inside (I : Interpreter S) (span around : Option String) (limit : Nat)
    (e : Effect S) :
    (I.inside span).running limit e around = I.running limit e span := by
  unfold running
  rw [runFor_inside]

/-- What becomes of an event does not depend on its span. -/
def Overlooks (I : Interpreter S) : Prop :=
  ∀ span span' report, I.observe ⟨span, report⟩ = I.observe ⟨span', report⟩

namespace Overlooks

variable {I : Interpreter S} (h : I.Overlooks)

include h

theorem inside_eq (span : Option String) : I.inside span = I.inside none := by
  have hobserve : (I.inside span).observe = (I.inside none).observe :=
    funext fun event => h span none event.report
  exact congrArg (Interpreter.mk I.meaning) hobserve

theorem announce_eq (span : Option String) (c : Command S) (w : S.World) :
    I.announce span c w = I.announce none c w :=
  congrArg (fun x : Action S Unit => (x w).2) (h span none (.running c.label))

theorem running_eq (limit : Nat) (e : Effect S) (span : Option String) :
    I.running limit e span = I.running limit e none := by
  calc I.running limit e span
      = (I.inside span).running limit e none := (I.running_inside span none limit e).symm
    _ = (I.inside none).running limit e none := by rw [h.inside_eq]
    _ = I.running limit e none := I.running_inside none none limit e

end Overlooks

end Interpreter

/-! ## Ways -/

/-- Every way to have an effect run is a plain run, with its events in the span of the way. -/
theorem Way.run_eq {R : Runtime} (hR : R.Faithful) (I : Interpreter S) (limit : Nat) (e : Effect S)
    (way : Way) (around : Option String) :
    way.run R I limit e around = I.running limit e (way.span around) := by
  cases way with
  | plain => rfl
  | recorded => exact (I.running_eq_recording limit e around).symm
  | blocking => exact congrFun (hR.blockOn _) around
  | own => rfl
  | ownBlocking => exact congrFun (hR.blockOn _) around
  | instrumented span => exact hR.instrument span _ around

/-! ## Lines in a span -/

namespace Journal

/-- The line with its event, if it has one, moved into a span. -/
def Entry.inside (span : Option String) : Entry → Entry
  | .event e => .event { e with span }
  | entry => entry

theorem Entry.span_of_mem_inside {span : Option String} {lines : List Entry} {event : Event}
    (h : .event event ∈ lines.map (Entry.inside span)) : event.span = span := by
  rcases List.mem_map.1 h with ⟨entry, -, hentry⟩
  cases entry <;> cases hentry
  rfl

/-- The one event of a block is its report. -/
theorem Block.entries_eq_map_inside (b : Block) (span : Option String) :
    b.entries span = (b.entries none).map (Entry.inside span) := by
  -- All other lines of a block are calls, which lie in no span.
  have hcalls : b.calls.map (Entry.inside span) = b.calls := by
    refine (List.map_congr_left fun entry hentry => ?_).trans b.calls.map_id
    rcases b.calls_only entry hentry with rfl | rfl <;> rfl
  have hanswers : b.answers.map (Entry.inside span) = b.answers := by
    rcases b with ⟨label, phase, calls⟩
    rcases phase with _ | _ | _ <;> rfl
  have hwork : b.work.map (Entry.inside span) = b.work := by
    rw [work, List.map_append, hanswers, hcalls]
  rw [entries, entries, List.map_cons, hwork]
  rfl

end Journal

/-! ## Runs with a journal -/

/-- The same end in a world that keeps a journal. -/
def Finished.journaled (f : Finished S) : Finished S.journaled := ⟨f.result, f.trace⟩

namespace Interpreter

variable {I : Interpreter S}

/-- What a run writes beside what it does to the world: the same lines in every span, and behind
every journal. -/
theorem runFor_journaled (h : I.Overlooks) (limit : Nat) (e : Effect S) (trace : Option Trace)
    (w : S.World) :
    ∃ lines : List Entry, ∀ span journal,
      I.journaled.runFor span limit e.journaled trace (w, journal) =
        ((I.runFor none limit e trace w).1.map Finished.journaled,
          ((I.runFor none limit e trace w).2, journal ++ lines.map (Entry.inside span))) := by
  -- The induction is on the number of commands; what the rest of a run writes stands behind the
  -- block of its first command, in whichever journal that was written.
  induction limit generalizing e trace w with
  | zero =>
    refine ⟨[], fun span journal => ?_⟩
    rw [List.map_nil, List.append_nil]
    cases e <;> rfl
  | succ limit ih =>
    cases e with
    | success value =>
      refine ⟨[], fun span journal => ?_⟩
      rw [List.map_nil, List.append_nil]
      rfl
    | failure error =>
      refine ⟨[], fun span journal => ?_⟩
      rw [List.map_nil, List.append_nil]
      rfl
    | command c =>
      rcases hadvance : c.advance I.meaning (I.announce none c w) with ⟨a, w₁⟩
      rcases advance_journaled hadvance with ⟨b, -, -, hb⟩
      have hblock : ∀ span journal,
          c.journaled.advance I.journaled.meaning
              (I.journaled.announce span c.journaled (w, journal)) =
            (a.journaled, (w₁, journal ++ (b.entries none).map (Entry.inside span))) := by
        intro span journal
        rw [← b.entries_eq_map_inside]
        exact hb span w journal (h.announce_eq span c w)
      cases a with
      | next e =>
        rcases ih e (trace.map (·.push c.label)) w₁ with ⟨lines, hlines⟩
        refine ⟨b.entries none ++ lines, fun span journal => ?_⟩
        rw [runFor_of_next hadvance, List.map_append, ← List.append_assoc]
        exact (runFor_of_next (hblock span journal) limit trace).trans (hlines span _)
      | fault phase error =>
        refine ⟨b.entries none ++ [.event ⟨none, .faulted c.label phase⟩],
          fun span journal => ?_⟩
        -- The report of the fault is the last line, and the world is changed by whoever reads it.
        have hreport : I.observe ⟨span, .faulted c.label phase⟩ =
            I.observe ⟨none, .faulted c.label phase⟩ := h span none _
        have hfault := runFor_of_fault (I := I.journaled) (hblock span journal) limit trace
        rw [runFor_of_fault hadvance, List.map_append, ← List.append_assoc, ← hreport]
        exact hfault

end Interpreter

namespace Way

variable {R : Runtime} {I : Interpreter S}

/-- A run of any way, with the lines that it writes. -/
theorem run_journaled (hR : R.Faithful) (overlooks : I.Overlooks) (limit : Nat) (e : Effect S)
    (w : S.World) :
    ∃ lines : List Entry, ∀ (way : Way) around journal,
      way.run R I.journaled limit e.journaled around (w, journal) =
        ((I.running limit e none w).1, ((I.running limit e none w).2,
          journal ++ lines.map (Entry.inside (way.span around)))) := by
  rcases Interpreter.runFor_journaled overlooks limit e none w with ⟨lines, hlines⟩
  refine ⟨lines, fun way around journal => ?_⟩
  have hrun := hlines (way.span around) journal
  rw [way.run_eq hR]
  simp only [Interpreter.running, Action.bind_apply, hrun]
  cases (I.runFor none limit e none w).1 <;> rfl

/-- Whichever way an effect is run, nothing but the span of its events changes.

* A run that is not instrumented, and not started in a span, is the plain run; an instrumented one
  is the run inside its span.
* Every run is the plain run of the interpreter whose events are moved into a span.
* Where nothing depends on spans, all runs have one result and leave one world behind.  They write
  the same lines where a journal is kept: each operation, each continuation, each function of a link
  and each event at its place.  All events lie in the span that the run is instrumented with, or
  else in the one that it was started in. -/
theorem observation_inert (hR : R.Faithful) (I : Interpreter S) (limit : Nat) (e : Effect S) :
    (∀ way : Way, way.span none = none → way.run R I limit e none = I.run limit e) ∧
    (∀ span around,
      (Way.instrumented span).run R I limit e around = I.runWithin span limit e) ∧
    (∀ (way : Way) around,
      way.run R I limit e around = (I.inside (way.span around)).running limit e around) ∧
    (I.Overlooks → ∀ w, ∃ (result : Option (Except S.Error S.Value)) (w' : S.World)
        (lines : List Entry), ∀ (way : Way) around,
      way.run R I limit e around w = (result, w') ∧
      (∀ journal, way.run R I.journaled limit e.journaled around (w, journal) =
        (result, (w', journal ++ lines.map (Entry.inside (way.span around))))) ∧
      ∀ event, .event event ∈ lines.map (Entry.inside (way.span around)) →
        event.span = way.span around) := by
  refine ⟨?_, ?_, ?_, ?_⟩
  · intro way hspan
    rw [way.run_eq hR, hspan]
    rfl
  · intro span around
    rw [run_eq hR]
    rfl
  · intro way around
    rw [way.run_eq hR, I.running_inside]
  · intro overlooks w
    rcases run_journaled hR overlooks limit e w with ⟨lines, hlines⟩
    refine ⟨(I.running limit e none w).1, (I.running limit e none w).2, lines,
      fun way around => ⟨?_, hlines way around, fun event => Entry.span_of_mem_inside⟩⟩
    rw [way.run_eq hR, overlooks.running_eq]
    rfl

end Way

namespace Interpreter.Diary

theorem overlooks : interpreter.Overlooks := fun _ _ _ => rfl

/-- Two commands, run in every way: seven comes of them, and the diary and the lines beside it are
the same, whatever the span. -/
theorem observation_inert_twice :
    Runtime.inPlace.Faithful ∧ interpreter.Overlooks ∧
      ∃ lines : List Entry, ∀ (way : Way) around,
        way.run .inPlace interpreter 2 (twice 7) around [] =
          (some (.ok (7 : Nat)), entry first ++ [.called 7] ++ entry second) ∧
        ∀ journal, way.run .inPlace interpreter.journaled 2 (twice 7).journaled around
            ([], journal) =
          (some (.ok (7 : Nat)), (entry first ++ [.called 7] ++ entry second,
            journal ++ lines.map (Entry.inside (way.span around)))) := by
  have hfaithful := Runtime.faithful_inPlace
  refine ⟨hfaithful, overlooks, ?_⟩
  rcases (Way.observation_inert hfaithful interpreter 2 (twice 7)).2.2.2 overlooks [] with
    ⟨result, w', lines, h⟩
  -- The recorded run can be carried out, and the others come to the same.
  have hfirst := advance_ask (n := 7) (by decide) first [.onSuccess (.call second)] []
  rw [Effect.pass_singleton] at hfirst
  have hrecorded : interpreter.runRecorded 2 (twice 7) [] = _ :=
    (Run.next hfirst (run_ask (by decide) second _)).runRecorded_of_le (Nat.le_refl 2)
  have hresult := congrArg (fun x => (x.1.map Prod.fst, x.2)) hrecorded
  have hsame : (result, w') =
      (some (.ok (7 : Nat)), entry first ++ [.called 7] ++ entry second) :=
    (h .recorded none).1.symm.trans hresult
  cases hsame
  exact ⟨lines, fun way around => ⟨(h way around).1, (h way around).2.1⟩⟩

end Interpreter.Diary

end Deferred
