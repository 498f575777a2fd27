import Deferred.Text.Quoted
import Deferred.Text.Shown

/-!
# Value — the data of scenarios

A scenario is a script that builds, chains, resumes and runs effects.  Its success values and
its errors are of one type, `Scenario.Value`.

* `Value` — units, booleans, 64-bit integers, strings, optional values and lists;
* `Value.toInt`, `Value.text` — the two total conversions;
* `Value.shown` — the rendered form.
-/

namespace Deferred.Scenario

/-- A value of a scenario. -/
inductive Value where
  | unit
  | bool (b : Bool)
  | int (n : Int64)
  | str (s : String)
  | none
  | some (v : Value)
  | list (vs : List Value)

namespace Value

instance : Inhabited Value := ⟨.unit⟩

/-! ## Equality -/

mutual

/-- Structural equality. -/
def beq : Value → Value → Bool
  | .unit, .unit => true
  | .bool a, .bool b => a == b
  | .int a, .int b => a == b
  | .str a, .str b => a == b
  | .none, .none => true
  | .some a, .some b => beq a b
  | .list as, .list bs => beqAll as bs
  | _, _ => false

/-- Structural equality of lists. -/
def beqAll : List Value → List Value → Bool
  | [], [] => true
  | a :: as, b :: bs => beq a b && beqAll as bs
  | _, _ => false

end

instance : BEq Value := ⟨beq⟩

mutual

theorem eq_of_beq_true : ∀ {a b : Value}, beq a b = true → a = b
  | .unit, b, h => by cases b <;> simp_all [beq]
  | .bool _, b, h => by cases b <;> simp_all [beq]
  | .int _, b, h => by cases b <;> simp_all [beq]
  | .str _, b, h => by cases b <;> simp_all [beq]
  | .none, b, h => by cases b <;> simp_all [beq]
  | .some a, b, h => by
      cases b with
      | some b => exact congrArg Value.some (eq_of_beq_true (by simpa [beq] using h))
      | _ => simp [beq] at h
  | .list as, b, h => by
      cases b with
      | list bs => exact congrArg Value.list (eq_of_beqAll (by simpa [beq] using h))
      | _ => simp [beq] at h

theorem eq_of_beqAll : ∀ {as bs : List Value}, beqAll as bs = true → as = bs
  | [], bs, h => by cases bs <;> simp_all [beqAll]
  | a :: as, bs, h => by
      cases bs with
      | nil => simp [beqAll] at h
      | cons b bs =>
          simp only [beqAll, Bool.and_eq_true] at h
          rw [eq_of_beq_true h.1, eq_of_beqAll h.2]

end

mutual

theorem beq_self : ∀ a : Value, beq a a = true
  | .unit => by simp [beq]
  | .bool _ => by simp [beq]
  | .int _ => by simp [beq]
  | .str _ => by simp [beq]
  | .none => by simp [beq]
  | .some a => by simpa [beq] using beq_self a
  | .list as => by simpa [beq] using beqAll_self as

theorem beqAll_self : ∀ as : List Value, beqAll as as = true
  | [] => by simp [beqAll]
  | a :: as => by simp [beqAll, beq_self a, beqAll_self as]

end

instance : LawfulBEq Value where
  eq_of_beq := eq_of_beq_true
  rfl := beq_self _

instance : DecidableEq Value := instDecidableEqOfLawfulBEq

/-! ## Rendering -/

mutual

/-- The rendered form of a value. -/
def shown : Value → Shown
  | .unit => .atom "()"
  | .bool true => .atom "true"
  | .bool false => .atom "false"
  | .int n => .atom (toString n.toInt)
  | .str s => .atom (Text.quoted s)
  | .none => .atom "None"
  | .some v => .tuple "Some" [shown v]
  | .list vs => .list (shownAll vs)

/-- The rendered form of each value. -/
def shownAll : List Value → List Shown
  | [] => []
  | v :: vs => shown v :: shownAll vs

end

/-! ## Conversions -/

/-- The integer that a value counts as: a string counts its characters, a list its items. -/
def toInt : Value → Int64
  | .unit => 0
  | .bool b => if b then 1 else 0
  | .int n => n
  | .str s => Int64.ofNat s.length
  | .none => 0
  | .some v => v.toInt
  | .list vs => Int64.ofNat vs.length

/-- The text of a value: a string itself, anything else rendered on one line. -/
def text : Value → String
  | .str s => s
  | v => v.shown.compact

/-- A value is truthy when it does not count as zero. -/
def truthy (v : Value) : Bool := v.toInt != 0

end Value

end Deferred.Scenario
