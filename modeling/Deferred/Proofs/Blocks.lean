import Deferred.Proofs.Journal
import Deferred.Proofs.RunLaws

/-!
# Blocks — what a record tells of the journal of its run

The journal of a run splits into blocks, one for each command, in the order in which the commands
were run.  The report of a fault follows the last of them.  All that a record says can be read off
these lines, and nothing else is in them.

* `Trace.Recounts` — a record tells of blocks, one rule for each way in which a command is left;
* `Interpreter.Run.journaled` — a run with a journal has the same record, and writes such blocks;
* `Trace.Accounts` — what there is to say of a record, a result and the lines of a journal;
* `Interpreter.ends_journaled` — a run that ends has a record that says so.
-/

namespace Deferred

open Journal

variable {S : Signature} {span : Option String}

/-! ## Reading a journal -/

namespace Journal

namespace Entry

/-- The label of the command whose operation was called. -/
def invoked? : Entry → Option Label
  | .operation label _ => some label
  | _ => none

/-- The label of the command that was reported. -/
def running? : Entry → Option Label
  | .event ⟨_, .running label⟩ => some label
  | _ => none

/-- The fault that was reported. -/
def faulted? : Entry → Option Fault
  | .event ⟨_, .faulted label phase⟩ => some ⟨label, phase⟩
  | _ => none

/-- The answer that a command faulted with. -/
def failed (f : Fault) : Entry :=
  match f.phase with
  | .operation => .operation f.label false
  | .continuation => .continuation f.label false

/-- The report of a fault. -/
def faulted (span : Option String) (f : Fault) : Entry := .event ⟨span, .faulted f.label f.phase⟩

end Entry

/-- What is not a call of a queue's function is not among them. -/
theorem Calls.filterMap_eq_nil {α : Type} {entries : List Entry} (h : Calls entries)
    {read : Entry → Option α} (hstep : read .step = none)
    (htransformation : read .transformation = none) : entries.filterMap read = [] := by
  rw [List.filterMap_eq_nil_iff]
  intro entry hentry
  rcases h entry hentry with rfl | rfl
  · exact hstep
  · exact htransformation

theorem Calls.failed_notMem {entries : List Entry} (h : Calls entries) (f : Fault) :
    .failed f ∉ entries := by
  intro hmem
  rcases f with ⟨label, phase⟩
  rcases h _ hmem with heq | heq <;> cases phase <;> cases heq

namespace Block

variable (b : Block)

theorem filterMap_invoked : (b.entries span).filterMap Entry.invoked? = [b.label] := by
  have hcalls : b.calls.filterMap Entry.invoked? = [] := b.calls_only.filterMap_eq_nil rfl rfl
  have hanswers : b.answers.filterMap Entry.invoked? = [b.label] := by
    rcases b with ⟨label, phase, calls⟩
    rcases phase with _ | _ | _ <;> rfl
  show (b.answers ++ b.calls).filterMap Entry.invoked? = _
  rw [List.filterMap_append, hanswers, hcalls, List.append_nil]

/-- Whoever looks for reports finds none behind the first line of a block. -/
theorem work_filterMap_eq_nil {α : Type} {read : Entry → Option α}
    (hoperation : ∀ label succeeded, read (.operation label succeeded) = none)
    (hcontinuation : ∀ label succeeded, read (.continuation label succeeded) = none)
    (hstep : read .step = none) (htransformation : read .transformation = none) :
    b.work.filterMap read = [] := by
  have hcalls : b.calls.filterMap read = [] :=
    b.calls_only.filterMap_eq_nil hstep htransformation
  have hanswers : b.answers.filterMap read = [] := by
    rcases b with ⟨label, phase, calls⟩
    rcases phase with _ | _ | _ <;> simp [answers, hoperation, hcontinuation]
  rw [work, List.filterMap_append, hanswers, hcalls, List.append_nil]

theorem filterMap_running : (b.entries span).filterMap Entry.running? = [b.label] := by
  have hwork : b.work.filterMap Entry.running? = [] :=
    b.work_filterMap_eq_nil (fun _ _ => rfl) (fun _ _ => rfl) rfl rfl
  show b.label :: b.work.filterMap Entry.running? = _
  rw [hwork]

theorem filterMap_faulted : (b.entries span).filterMap Entry.faulted? = [] :=
  b.work_filterMap_eq_nil (fun _ _ => rfl) (fun _ _ => rfl) rfl rfl

/-- Of all answers that a command can fault with, a block holds that of its own fault. -/
theorem failed_mem_iff (f : Fault) : .failed f ∈ b.entries span ↔ b.fault = some f := by
  have hcalls : Entry.failed f ∉ b.calls := b.calls_only.failed_notMem f
  have hreport : Entry.failed f ≠ .event ⟨span, .running b.label⟩ := by
    rcases f with ⟨label, phase⟩
    cases phase <;> exact nofun
  -- A block has the one answer that its phase says, so each pair of phases is looked at.
  have hanswers : Entry.failed f ∈ b.answers ↔ b.fault = some f := by
    rcases b with ⟨label, phase, calls⟩
    rcases f with ⟨label', phase'⟩
    rcases phase with _ | _ | _ <;> cases phase' <;>
      simp [answers, fault, Entry.failed, eq_comm]
  rw [entries, List.mem_cons, or_iff_right hreport, work, List.mem_append, or_iff_left hcalls,
    hanswers]

end Block

end Journal

/-! ## Records and blocks -/

namespace Trace

/-- A record tells of the blocks that were written: any number of commands that went well, and the
one that faulted, if there is one. -/
inductive Recounts : Trace → List Block → Prop where
  | nothing : Recounts .empty []
  | fault (b : Block) {phase : Phase} (faulted : b.phase = some phase) :
      Recounts ((invoked b.label).faultedAt ⟨b.label, phase⟩) [b]
  | next (b : Block) {t : Trace} {blocks : List Block} (settled : b.phase = none)
      (rest : Recounts t blocks) : Recounts (invoked b.label ++ t) (b :: blocks)

namespace Recounts

variable {t : Trace} {blocks : List Block} (h : t.Recounts blocks)

include h

theorem executed : t.executed.toList = blocks.map Block.label := by
  induction h with
  | nothing => rfl
  | fault b faulted => rfl
  | @next b t blocks settled rest ih =>
    show (#[b.label] ++ t.executed).toList = b.label :: blocks.map Block.label
    rw [Array.toList_append, ih]
    rfl

/-- No block follows the one of a fault. -/
theorem settled : ∀ b ∈ blocks.dropLast, b.phase = none := by
  induction h with
  | nothing => exact nofun
  | fault b faulted => exact nofun
  | @next b t blocks settled rest ih =>
    intro b' hb'
    cases blocks with
    | nil => cases hb'
    | cons b₁ blocks =>
      rcases List.mem_cons.1 hb' with rfl | hb'
      · exact settled
      · exact ih b' hb'

/-- The fault of the record is that of the last block. -/
theorem fault_eq : t.fault = blocks.getLast?.bind Block.fault := by
  induction h with
  | nothing => rfl
  | fault b faulted =>
    exact (Block.fault_of_phase faulted).symm
  | @next b t blocks settled rest ih =>
    rw [fault_append, fault_invoked, ih]
    cases blocks with
    | nil =>
      exact (Block.fault_eq_none settled).symm
    | cons b₁ blocks =>
      rw [List.getLast?_cons_cons]
      cases (b₁ :: blocks).getLast?.bind Block.fault <;> rfl

/-- A record has a fault exactly if an answer to that effect was written. -/
theorem failed_mem_iff (f : Fault) :
    .failed f ∈ blocks.flatMap (Block.entries span) ↔ t.fault = some f := by
  induction h with
  | nothing => exact ⟨nofun, nofun⟩
  | @fault b phase faulted =>
    rw [List.flatMap_singleton, b.failed_mem_iff, Block.fault_of_phase faulted]
    exact Iff.rfl
  | @next b t blocks settled rest ih =>
    have hsum : (invoked b.label ++ t).fault = t.fault := by
      rw [fault_append, fault_invoked]
      cases t.fault <;> rfl
    rw [List.flatMap_cons, List.mem_append, b.failed_mem_iff, Block.fault_eq_none settled, ih, hsum]
    simp

theorem last_executed {f : Fault} (hf : t.fault = some f) :
    t.executed.toList.getLast? = some f.label := by
  rw [h.fault_eq, Option.bind_eq_some_iff] at hf
  rcases hf with ⟨b, hlast, hb⟩
  have hlabel : b.label = f.label := by
    rcases Option.map_eq_some_iff.1 hb with ⟨phase, -, rfl⟩
    rfl
  rw [h.executed, List.getLast?_map, hlast, Option.map_some, hlabel]

/-- What each block gives the label of gives the labels of the record. -/
theorem flatMap_filterMap {read : Entry → Option Label}
    (hread : ∀ b : Block, (b.entries span).filterMap read = [b.label]) :
    (blocks.flatMap (Block.entries span)).filterMap read = t.executed.toList := by
  have hlabels : (fun b : Block => (b.entries span).filterMap read) = fun b => [b.label] :=
    funext hread
  rw [List.filterMap_flatMap, hlabels, h.executed, List.map_eq_flatMap]

end Recounts

/-- The report of the fault, if there is one. -/
def faultEntries (span : Option String) (t : Trace) : List Entry :=
  t.fault.toList.map (Entry.faulted span)

theorem filterMap_faultEntries_eq_nil {α : Type} {read : Entry → Option α}
    (hread : ∀ f, read (.faulted span f) = none) (t : Trace) :
    (t.faultEntries span).filterMap read = [] := by
  unfold faultEntries
  cases t.fault with
  | none =>
    rfl
  | some f =>
    simp [hread]

/-- All that there is to say of the record and the result of a run, and of the lines that were
written, in blocks: -/
structure Accounts (t : Trace) (result : Except S.Error S.Value) (blocks : List Block)
    (lines : List Entry) : Prop where
  /-- the lines are those of the blocks, and the report of the fault; -/
  lines_eq : lines = blocks.flatMap (Block.entries none) ++ t.faultEntries none
  /-- each block belongs to an executed command, in that order; -/
  executed : t.executed.toList = blocks.map Block.label
  /-- these are the commands whose operations were called; -/
  invoked : lines.filterMap Entry.invoked? = t.executed.toList
  /-- they are the ones that were reported; -/
  running : lines.filterMap Entry.running? = t.executed.toList
  /-- no block but the last one is that of a fault; -/
  settled : ∀ b ∈ blocks.dropLast, b.phase = none
  /-- the fault is that of the last block; -/
  fault : t.fault = blocks.getLast?.bind Block.fault
  /-- it is the one that an operation or a continuation has answered; -/
  failed : ∀ f, t.fault = some f ↔ .failed f ∈ lines
  /-- its label is the last one; -/
  last : ∀ f, t.fault = some f → t.executed.toList.getLast? = some f.label
  /-- a run that faulted ends in an error; -/
  error : t.fault ≠ none → ∃ error, result = .error error
  /-- the fault is reported once, and nothing else is. -/
  faulted : lines.filterMap Entry.faulted? = t.fault.toList

end Trace

/-! ## Runs with a journal -/

namespace Interpreter

variable {I : Interpreter S} {e : Effect S} {w w' : S.World} {r : Except S.Error S.Value}
  {t : Trace}

theorem journaled_announce (c : Command S) (w : S.World) (journal : List Entry) :
    I.journaled.announce span c.journaled (w, journal) =
      (I.announce span c w, journal ++ [.event ⟨span, .running c.label⟩]) := rfl

theorem journaled_reportFault (t : Trace) (w : S.World) (journal : List Entry) :
    (I.journaled.reportFault span t (w, journal)).2 =
      ((I.reportFault span t w).2, journal ++ t.faultEntries span) := by
  unfold reportFault Trace.faultEntries
  cases t.fault with
  | none =>
    exact congrArg (Prod.mk w) (List.append_nil journal).symm
  | some f =>
    rfl

/-- A command that notes what it does leads to where the command leads to, and writes a block,
whatever the span and whatever the journal holds. -/
theorem advance_journaled {c : Command S} {a : Advance S}
    (advanced : c.advance I.meaning w = (a, w')) :
    ∃ b : Block, b.label = c.label ∧ b.phase = a.phase ∧
      ∀ span w₀ journal, I.announce span c w₀ = w →
        c.journaled.advance I.journaled.meaning
            (I.journaled.announce span c.journaled (w₀, journal)) =
          (a.journaled, (w', journal ++ b.entries span)) := by
  rcases c.echoes_advance I.meaning w with ⟨entries, ⟨b, hlabel, hphase, hwork⟩, h⟩
  rw [advanced] at hphase h
  subst hwork
  refine ⟨b, hlabel, hphase, fun span w₀ journal hw => ?_⟩
  -- The report is written before the operation is called, so the command starts behind it.
  rw [journaled_announce, hw]
  refine (h (journal ++ [.event ⟨span, .running c.label⟩])).trans ?_
  rw [List.append_assoc, ← hlabel]
  rfl

/-- A run in a world with a journal is the run in the world alone.  It writes the blocks that its
record tells of. -/
theorem Run.journaled (h : I.Run span e w r t w') (journal : List Entry) :
    ∃ blocks, t.Recounts blocks ∧
      I.journaled.Run span e.journaled (w, journal) r t
        (w', journal ++ blocks.flatMap (Block.entries span)) := by
  -- The induction is on the run.  The journal varies: the rest of it writes behind the first block.
  induction h generalizing journal with
  | success value w =>
    refine ⟨[], .nothing, ?_⟩
    rw [List.flatMap_nil, List.append_nil]
    exact .success (I := I.journaled) value (w, journal)
  | failure error w =>
    refine ⟨[], .nothing, ?_⟩
    rw [List.flatMap_nil, List.append_nil]
    exact .failure (I := I.journaled) error (w, journal)
  | @next c e w w₁ w₂ r t advanced _ ih =>
    rcases advance_journaled advanced with ⟨b, hlabel, hphase, hadvanced⟩
    rcases ih (journal ++ b.entries span) with ⟨blocks, hblocks, hrun⟩
    refine ⟨b :: blocks, hlabel ▸ .next b hphase hblocks, ?_⟩
    rw [List.flatMap_cons, ← List.append_assoc]
    exact .next (hadvanced span w journal rfl) hrun
  | @fault c phase error w w₁ advanced =>
    -- The run is over, so the block of the fault is the only one.
    rcases advance_journaled advanced with ⟨b, hlabel, hphase, hadvanced⟩
    refine ⟨[b], hlabel ▸ .fault b hphase, ?_⟩
    rw [List.flatMap_singleton]
    exact .fault (hadvanced span w journal rfl)

/-- What the blocks of a run and the report of its fault amount to. -/
theorem Run.accounts {w₁ : S.World} {blocks : List Block} (h : I.Run span e w r t w₁)
    (hblocks : t.Recounts blocks) :
    t.Accounts r blocks (blocks.flatMap (Block.entries none) ++ t.faultEntries none) where
  lines_eq := rfl
  executed := hblocks.executed
  invoked := by
    rw [List.filterMap_append, hblocks.flatMap_filterMap fun b => b.filterMap_invoked,
      Trace.filterMap_faultEntries_eq_nil fun _ => rfl, List.append_nil]
  running := by
    rw [List.filterMap_append, hblocks.flatMap_filterMap fun b => b.filterMap_running,
      Trace.filterMap_faultEntries_eq_nil fun _ => rfl, List.append_nil]
  settled := hblocks.settled
  fault := hblocks.fault_eq
  failed := by
    intro f
    have hreport : .failed f ∉ t.faultEntries none := by
      rcases f with ⟨label, phase⟩
      unfold Trace.faultEntries
      cases t.fault <;> cases phase <;> simp [Entry.failed, Entry.faulted]
    rw [List.mem_append, or_iff_left hreport, hblocks.failed_mem_iff]
  last := fun f hf => hblocks.last_executed hf
  error := by
    intro hfault
    cases r with
    | ok value =>
      exact absurd h.fault_eq_none hfault
    | error error =>
      exact ⟨error, rfl⟩
  faulted := by
    have hblock : (blocks.flatMap (Block.entries none)).filterMap Entry.faulted? = [] := by
      rw [List.filterMap_flatMap, List.flatMap_eq_nil_iff]
      exact fun b _ => b.filterMap_faulted
    have hreport : (t.faultEntries none).filterMap Entry.faulted? = t.fault.toList := by
      unfold Trace.faultEntries
      cases t.fault <;> rfl
    rw [List.filterMap_append, hblock, hreport, List.nil_append]

/-- A run that ends does the same with a journal, and its record tells exactly what was written
there: the blocks of the commands that were run, in order, each with its report, one operation, and
one continuation if the operation has returned a result. -/
theorem ends_journaled (h : I.Ends (pure e) w r t w') (journal : List Entry) :
    ∃ blocks lines, t.Accounts r blocks lines ∧
      I.journaled.Ends (pure e.journaled) (w, journal) r t (w', journal ++ lines) := by
  rcases ends_iff_run.1 h with ⟨w₁, hrun, hw⟩
  rcases hrun.journaled journal with ⟨blocks, hblocks, hjournaled⟩
  refine ⟨blocks, _, hrun.accounts hblocks, ends_iff_run.2 ⟨_, hjournaled, ?_⟩⟩
  rw [journaled_reportFault, hw, List.append_assoc]

namespace Diary

/-- With a number to go on with, both commands have a block.  Without one, the first is the last. -/
theorem ends_journaled_twice :
    (∃ blocks lines, Trace.Accounts (S := signature) ⟨#[first, second], none⟩ (.ok (7 : Nat))
        blocks lines ∧
      interpreter.journaled.Ends (pure (twice 7).journaled) ([], []) (.ok (7 : Nat))
        ⟨#[first, second], none⟩ (entry first ++ [.called 7] ++ entry second, lines)) ∧
    ∃ blocks lines, Trace.Accounts (S := signature) ⟨#[first], some ⟨first, .continuation⟩⟩
        (.error (0 : Nat)) blocks lines ∧
      interpreter.journaled.Ends (pure (twice 0).journaled) ([], []) (.error (0 : Nat))
        ⟨#[first], some ⟨first, .continuation⟩⟩
        (entry first ++ [.reported (.faulted first .continuation)], lines) :=
  ⟨ends_journaled ends_twice [], ends_journaled ends_twice_zero []⟩

end Diary

end Interpreter

end Deferred
