import Deferred.Scenario.Value

/-!
# ResultType — the types that operations of a scenario produce

* `ResultType` — eleven types, each with a name of its own;
* `ResultType.Carrier` — the values of a type;
* `ResultType.make`, `ResultType.toValue` — from a scenario value and back.
-/

namespace Deferred.Scenario

/-- The type of an operation's result.  `owned` and `borrowed` strings hold the same texts and
are told apart by their names. -/
inductive ResultType where
  | int64
  | int32
  | byte
  | bool
  | owned
  | borrowed
  | unit
  | optionInt
  | optionText
  | ints
  | pair
  deriving DecidableEq

namespace ResultType

/-- The values of a type. -/
def Carrier : ResultType → Type
  | .int64 => Int64
  | .int32 => Int32
  | .byte => UInt8
  | .bool => Bool
  | .owned => String
  | .borrowed => String
  | .unit => Unit
  | .optionInt => Option Int64
  | .optionText => Option String
  | .ints => List Int64
  | .pair => Int64 × String

/-- The name of a type in reports. -/
def name : ResultType → String
  | .int64 => "i64"
  | .int32 => "i32"
  | .byte => "u8"
  | .bool => "bool"
  | .owned => "alloc::string::String"
  | .borrowed => "&str"
  | .unit => "()"
  | .optionInt => "core::option::Option<i64>"
  | .optionText => "core::option::Option<alloc::string::String>"
  | .ints => "alloc::vec::Vec<i64>"
  | .pair => "(i64, alloc::string::String)"

/-- The value of a type that a scenario value is turned into.  Integers keep their lowest
bits. -/
def make : (t : ResultType) → Value → t.Carrier
  | .int64, v => v.toInt
  | .int32, v => v.toInt.toInt32
  | .byte, v => UInt8.ofNat (v.toInt.toUInt64.toNat)
  | .bool, v => v.truthy
  | .owned, v => v.text
  | .borrowed, v => v.text
  | .unit, _ => ()
  | .optionInt, v => match v with
      | .none => none
      | v => some v.toInt
  | .optionText, v => match v with
      | .none => none
      | .some w => some w.text
      | v => some v.text
  | .ints, v => match v with
      | .list vs => vs.map Value.toInt
      | v => [v.toInt]
  | .pair, v => match v with
      | .list [a, b] => (a.toInt, b.text)
      | v => (v.toInt, v.text)

/-- The scenario value that a value of a type is turned into. -/
def toValue : (t : ResultType) → t.Carrier → Value
  | .int64, n => .int n
  | .int32, n => .int n.toInt64
  | .byte, n => .int (Int64.ofNat n.toNat)
  | .bool, b => .bool b
  | .owned, s => .str s
  | .borrowed, s => .str s
  | .unit, _ => .unit
  | .optionInt, n => match n with
      | none => .none
      | some n => .some (.int n)
  | .optionText, s => match s with
      | none => .none
      | some s => .some (.str s)
  | .ints, ns => .list (ns.map Value.int)
  | .pair, (n, s) => .list [.int n, .str s]

end ResultType

end Deferred.Scenario
