import Deferred.Interpreter
import Deferred.Trace.Codec
import Mathlib.Data.List.Forall2

/-!
# Stored — what is stored of a run is read back as it was

The record of a run is stored as an object of its labels and its fault, a label as its text alone.
Nothing of it is lost: what is read back is equal to what was stored, and different records are
stored as different data.  An object is known by the values behind its keys and not by the order of
its keys, so "different" is said here of data up to that order.

* `Json.Same` — data that differ at most in the order of keys;
* `Json.ReadBack` — what was stored is read back, in whatever order its keys have come;
* `Label.Origin` — the two ways in which a program comes by the text of a label;
* `Fault.readBack`, `Trace.readBack` — one such law for each thing that is stored;
* `Trace.stored_losslessly` — records of runs, faults and labels.
-/

namespace Deferred

/-! ## Data without an order of keys -/

namespace Json

/-- Data that are equal but for the order of keys: the same items in the same order, and the same
values behind the same keys. -/
inductive Same : Json → Json → Prop where
  | refl (j : Json) : Same j j
  | arr {items items' : List Json} (h : List.Forall₂ Same items items') :
      Same (.arr items) (.arr items')
  | obj {fields fields' : List (String × Json)}
      (h : ∀ key, Option.Rel Same (lookup? key fields) (lookup? key fields')) :
      Same (.obj fields) (.obj fields')

/-- What was stored is read back as it was, also if its keys have been put in another order. -/
def ReadBack {α : Type} (store : α → Json) (read : Json → Except DecodeError α) : Prop :=
  ∀ a j, Same (store a) j → read j = .ok a

namespace ReadBack

variable {α : Type} {store : α → Json} {read : Json → Except DecodeError α}

theorem read_store (h : ReadBack store read) (a : α) : read (store a) = .ok a :=
  h a (store a) (.refl (store a))

/-- Whatever is stored can be told apart when it is stored. -/
theorem same_iff (h : ReadBack store read) (a b : α) : Same (store a) (store b) ↔ a = b := by
  constructor
  · intro hsame
    have ha : read (store b) = .ok a := h a (store b) hsame
    have hb : read (store b) = .ok b := h.read_store b
    exact Except.ok.inj (ha.symm.trans hb)
  · rintro rfl
    exact .refl (store a)

/-- Items are read back one by one. -/
theorem items (h : ReadBack store read) {as : List α} {items : List Json}
    (hsame : List.Forall₂ Same (as.map store) items) : items.mapM read = .ok as := by
  induction as generalizing items with
  | nil =>
    cases hsame
    rfl
  | cons a as ih =>
    cases hsame with
    | cons hitem hrest =>
      rw [List.mapM_cons, h a _ hitem, ih hrest]
      rfl

end ReadBack

/-- A text has no other form. -/
theorem Same.eq_of_str {text : String} {j : Json} (h : Same (.str text) j) : j = .str text := by
  cases h
  rfl

/-- The value behind a key, wherever the key has come. -/
theorem Same.lookup? {fields : List (String × Json)} {j : Json} (h : Same (.obj fields) j) :
    ∃ fields', j = .obj fields' ∧ ∀ key value, Json.lookup? key fields = some value →
      ∃ value', Json.lookup? key fields' = some value' ∧ Same value value' := by
  cases h with
  | refl =>
    exact ⟨fields, rfl, fun key value hvalue => ⟨value, hvalue, .refl value⟩⟩
  | @obj _ fields' h =>
    refine ⟨fields', rfl, ?_⟩
    intro key value hvalue
    have hrel := h key
    -- The key is in the one object, so it is in the other one.
    rw [hvalue] at hrel
    generalize Json.lookup? key fields' = found at hrel
    cases hrel with
    | some hsame =>
      exact ⟨_, rfl, hsame⟩

end Json

open Json

/-! ## Labels -/

namespace Label

theorem readBack : ReadBack toJson ofJson := by
  intro l j h
  rw [Same.eq_of_str h]
  rfl

/-- Where the text of a label comes from: it is a constant of the program, or it was made while
the program runs.  Labels are compared, ordered and shown by their texts. -/
inductive Origin where
  | constant (text : String)
  | made (text : String)
  deriving DecidableEq

namespace Origin

/-- The label of a text. -/
def label : Origin → Label
  | .constant text => ⟨text⟩
  | .made text => ⟨text⟩

/-- What is stored is the text, whichever it is. -/
def toJson : Origin → Json
  | .constant text => .str text
  | .made text => .str text

/-- A text that is read is made while the program runs. -/
def ofJson : Json → Except DecodeError Origin
  | .str text => .ok (.made text)
  | other => .error (.wrongType other .text)

theorem toJson_eq (o : Origin) : o.toJson = o.label.toJson := by
  cases o <;> rfl

/-- The origin of a text makes no difference to readers either. -/
theorem label_ofJson (j : Json) : label <$> ofJson j = Label.ofJson j := by
  cases j <;> rfl

end Origin

end Label

/-! ## Faults -/

namespace Phase

theorem ofConstant?_constant (p : Phase) : ofConstant? p.constant = some p := by
  cases p <;> rfl

theorem readBack : ReadBack toJson ofJson := by
  intro p j h
  rw [Same.eq_of_str h]
  show ofName p.constant = .ok p
  rw [ofName, ofConstant?_constant]

end Phase

namespace Fault

theorem readBack : ReadBack toJson ofJson := by
  intro f j h
  rcases Same.lookup? h with ⟨fields, rfl, hfields⟩
  rcases hfields "label" f.label.toJson rfl with ⟨label, hlabel, hsameLabel⟩
  rcases hfields "phase" f.phase.toJson rfl with ⟨phase, hphase, hsamePhase⟩
  have hreadLabel : Label.ofJson label = .ok f.label := Label.readBack f.label label hsameLabel
  have hreadPhase : Phase.ofJson phase = .ok f.phase := Phase.readBack f.phase phase hsamePhase
  rw [ofJson, hlabel, hphase, Option.mapM_some, Option.mapM_some, hreadLabel, hreadPhase]
  rfl

/-- The part of a stored record that holds its fault. -/
def optionToJson : Option Fault → Json
  | none => .null
  | some fault => fault.toJson

/-- An object is never taken for the absence of a fault. -/
theorem optionReadBack : ReadBack optionToJson optionOfJson := by
  intro fault? j h
  -- No fault is stored as `null` and a fault as an object, and reading looks at that first.
  cases fault? with
  | none =>
    cases h
    rfl
  | some fault =>
    rcases Same.lookup? h with ⟨fields, rfl, -⟩
    have hread : ofJson (.obj fields) = .ok fault := readBack fault _ h
    show some <$> ofJson (.obj fields) = _
    rw [hread]
    rfl

end Fault

/-! ## Records of runs -/

namespace Trace

theorem labelsReadBack {labels : Array Label} {j : Json}
    (h : Same (.arr (labels.toList.map Label.toJson)) j) : labelsOfJson j = .ok labels := by
  have hitems : ∃ items, j = .arr items ∧
      List.Forall₂ Same (labels.toList.map Label.toJson) items := by
    cases h with
    | refl =>
      exact ⟨_, rfl, List.forall₂_same.2 fun j _ => .refl j⟩
    | arr hitems =>
      exact ⟨_, rfl, hitems⟩
  rcases hitems with ⟨items, rfl, hsame⟩
  have hread : items.mapM Label.ofJson = .ok labels.toList := Label.readBack.items hsame
  rw [labelsOfJson, hread]
  rfl

theorem readBack : ReadBack toJson ofJson := by
  intro t j h
  have hstored : t.toJson = .obj [("executed", .arr (t.executed.toList.map Label.toJson)),
      ("fault", Fault.optionToJson t.fault)] := by
    unfold toJson Fault.optionToJson
    cases t.fault <;> rfl
  rw [hstored] at h
  -- Both fields are found by their keys, and what is behind them is read on its own.
  rcases Same.lookup? h with ⟨fields, rfl, hfields⟩
  rcases hfields "executed" _ rfl with ⟨executed, hexecuted, hsameExecuted⟩
  rcases hfields "fault" _ rfl with ⟨fault, hfault, hsameFault⟩
  have hreadExecuted : labelsOfJson executed = .ok t.executed := labelsReadBack hsameExecuted
  have hreadFault : Fault.optionOfJson fault = .ok t.fault :=
    Fault.optionReadBack t.fault fault hsameFault
  rw [ofJson, hexecuted, hfault, Option.mapM_some, Option.mapM_some, hreadExecuted, hreadFault]
  rfl

/-- The keys may come in another order. -/
example : ofJson (.obj
      [("fault", .obj [("phase", .str "Operation"), ("label", .str "save")]),
        ("executed", .arr [.str "find", .str "save"])]) =
    .ok ⟨#[⟨"find"⟩, ⟨"save"⟩], some ⟨⟨"save"⟩, .operation⟩⟩ := rfl

/-- Stored records lose nothing.

* Every record, with any labels and with a fault in either phase or none, is read back as it was,
  and different records are stored as different data.
* So is every fault.
* A label is stored alike whether its text is a constant of the program or was made while it runs,
  and what is read back is that label again.  Only labels that are equal are stored alike.
* In particular the record of every run of every effect, if it comes to an end, is read back as it
  was. -/
theorem stored_losslessly :
    (∀ t : Trace, Trace.ofJson t.toJson = .ok t) ∧
    (∀ s t : Trace, Json.Same s.toJson t.toJson ↔ s = t) ∧
    (∀ f : Fault, Fault.ofJson f.toJson = .ok f) ∧
    (∀ f g : Fault, Json.Same f.toJson g.toJson ↔ f = g) ∧
    (∀ o : Label.Origin, Label.Origin.label <$> Label.Origin.ofJson o.toJson = .ok o.label) ∧
    (∀ o p : Label.Origin, Json.Same o.toJson p.toJson ↔ o.label = p.label) ∧
    (∀ {S : Signature} (I : Interpreter S) (limit : Nat) (e : Effect S),
      Option.map (fun ended => Trace.ofJson ended.2.toJson) <$> I.runRecorded limit e =
        Option.map (fun ended => .ok ended.2) <$> I.runRecorded limit e) := by
  refine ⟨readBack.read_store, readBack.same_iff, Fault.readBack.read_store,
    Fault.readBack.same_iff, ?_, ?_, ?_⟩
  · intro o
    rw [Label.Origin.label_ofJson, Label.Origin.toJson_eq]
    exact Label.readBack.read_store o.label
  · intro o p
    rw [Label.Origin.toJson_eq, Label.Origin.toJson_eq]
    exact Label.readBack.same_iff o.label p.label
  · intro S I limit e
    have hread : (fun ended : Except S.Error S.Value × Trace => ofJson ended.2.toJson) =
        fun ended => .ok ended.2 :=
      funext fun ended => readBack.read_store ended.2
    rw [hread]

end Trace

end Deferred
