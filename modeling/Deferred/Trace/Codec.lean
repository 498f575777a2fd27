import Deferred.Json.Basic
import Deferred.Text.Decimal
import Deferred.Trace.Basic

/-!
# Codec — labels, faults and traces as JSON data

A label is stored as its text, a phase as its name, a fault and a trace as an object of their
fields.  Reading also takes a fault or a trace as an array of its fields in order, and a phase
as an object whose only key is its name; keys of an object that are not fields are passed over.

* `toJson` of each type;
* `ofJson` of each type, with the first problem met as a `DecodeError`;
* `DecodeError.message` — the sentence that reports it.
-/

namespace Deferred

/-! ## Problems -/

/-- What a reader asks for. -/
inductive Expected where
  | text
  | phase
  | fault
  | trace
  | sequence
  | unit

/-- Why data is refused. -/
inductive DecodeError where
  | missingField (name : String)
  | unknownPhase (name : String)
  | wrongType (found : Json) (expected : Expected)
  | notSingleKey
  | tooShort (length : Nat) (expected : Expected)
  | tooLong (length : Nat)

/-- The words for what a reader asks for. -/
def Expected.words : Expected → String
  | .text => "a string"
  | .phase => "string or map"
  | .fault => "struct Fault"
  | .trace => "struct Trace"
  | .sequence => "a sequence"
  | .unit => "unit"

/-- The words for a value that is not what a reader asks for. -/
def Json.words : Json → String
  | .null => "null"
  | .bool b => "boolean `" ++ (if b then "true" else "false") ++ "`"
  | .int n => "integer `" ++ toString n ++ "`"
  | .float x => "floating point `" ++ Text.decimal x ++ "`"
  | .str s => "string " ++ Text.quoted s
  | .arr _ => "sequence"
  | .obj _ => "map"

/-- The sentence that reports why data is refused. -/
def DecodeError.message : DecodeError → String
  | .missingField name => "missing field `" ++ name ++ "`"
  | .unknownPhase name =>
      "unknown variant `" ++ name ++ "`, expected `Operation` or `Continuation`"
  | .wrongType found expected =>
      "invalid type: " ++ found.words ++ ", expected " ++ expected.words
  | .notSingleKey => "invalid value: map, expected map with a single key"
  | .tooShort length expected =>
      "invalid length " ++ toString length ++ ", expected " ++ expected.words
        ++ " with 2 elements"
  | .tooLong length =>
      "invalid length " ++ toString length ++ ", expected fewer elements in array"

/-- A field that has to be there. -/
def required (name : String) {α : Type} : Option α → Except DecodeError α
  | some a => .ok a
  | none => .error (.missingField name)

/-- The end of an array that holds the two fields of a value. -/
def endOfPair (items : List Json) : List Json → Except DecodeError Unit
  | [] => .ok ()
  | _ :: _ => .error (.tooLong items.length)

/-! ## Labels -/

namespace Label

/-- A label is stored as its text. -/
def toJson (l : Label) : Json := .str l.text

/-- Read a label. -/
def ofJson : Json → Except DecodeError Label
  | .str text => .ok ⟨text⟩
  | other => .error (.wrongType other .text)

end Label

/-! ## Phases -/

namespace Phase

/-- A phase is stored as its name. -/
def toJson (p : Phase) : Json := .str p.constant

/-- Read the name of a phase. -/
def ofName (name : String) : Except DecodeError Phase :=
  match ofConstant? name with
  | some phase => .ok phase
  | none => .error (.unknownPhase name)

/-- Read a phase: its name, or an object with its name as the only key and nothing behind. -/
def ofJson : Json → Except DecodeError Phase
  | .str name => ofName name
  | .obj [(name, value)] => do
      let phase ← ofName name
      match value with
      | .null => return phase
      | other => throw (.wrongType other .unit)
  | .obj _ => .error .notSingleKey
  | other => .error (.wrongType other .phase)

end Phase

/-! ## Faults -/

namespace Fault

/-- A fault is stored as an object. -/
def toJson (f : Fault) : Json :=
  .obj [("label", f.label.toJson), ("phase", f.phase.toJson)]

/-- Read a fault.  Fields that are there are read before one that is missing is reported. -/
def ofJson : Json → Except DecodeError Fault
  | .obj fields => do
      let label ← (Json.lookup? "label" fields).mapM Label.ofJson
      let phase ← (Json.lookup? "phase" fields).mapM Phase.ofJson
      return ⟨← required "label" label, ← required "phase" phase⟩
  | .arr items =>
      match items with
      | [] => .error (.tooShort 0 .fault)
      | [label] => do
          let _ ← Label.ofJson label
          throw (.tooShort 1 .fault)
      | label :: phase :: rest => do
          let fault : Fault := ⟨← Label.ofJson label, ← Phase.ofJson phase⟩
          endOfPair items rest
          return fault
  | other => .error (.wrongType other .fault)

/-- Read a fault, or nothing. -/
def optionOfJson : Json → Except DecodeError (Option Fault)
  | .null => .ok none
  | other => some <$> ofJson other

end Fault

/-! ## Traces -/

namespace Trace

/-- Read the labels of a trace. -/
def labelsOfJson : Json → Except DecodeError (Array Label)
  | .arr items => do return (← items.mapM Label.ofJson).toArray
  | other => .error (.wrongType other .sequence)

/-- A trace is stored as an object. -/
def toJson (t : Trace) : Json :=
  .obj
    [("executed", .arr (t.executed.toList.map Label.toJson)),
      ("fault", match t.fault with
        | none => .null
        | some fault => fault.toJson)]

/-- Read a trace.  In an object the fault may be left out, in an array it may not. -/
def ofJson : Json → Except DecodeError Trace
  | .obj fields => do
      let executed ← (Json.lookup? "executed" fields).mapM labelsOfJson
      let fault ← (Json.lookup? "fault" fields).mapM Fault.optionOfJson
      return { executed := ← required "executed" executed, fault := fault.join }
  | .arr items =>
      match items with
      | [] => .error (.tooShort 0 .trace)
      | [executed] => do
          let _ ← labelsOfJson executed
          throw (.tooShort 1 .trace)
      | executed :: fault :: rest => do
          let trace : Trace :=
            { executed := ← labelsOfJson executed, fault := ← Fault.optionOfJson fault }
          endOfPair items rest
          return trace
  | other => .error (.wrongType other .trace)

end Trace

end Deferred
