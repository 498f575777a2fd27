import Deferred.Scenario.Value

/-!
# Expr — the expressions of scenarios

* `Env` — what names are bound to, innermost binding first;
* `Expr` — literals, names, constructors and operators;
* `Expr.eval` — the value of an expression; every expression has one.
-/

namespace Deferred.Scenario

/-- What names are bound to, innermost binding first. -/
abbrev Env := List (String × Value)

/-- The operators on one value. -/
inductive UnaryOp where
  | some
  | not
  | length
  | text
  | int

/-- The operators on two values. -/
inductive BinaryOp where
  | add
  | sub
  | mul
  | rem
  | lt
  | eq
  | concat
  | push

/-- An expression. -/
inductive Expr where
  | literal (v : Value)
  | var (name : String)
  | list (items : List Expr)
  | unary (op : UnaryOp) (arg : Expr)
  | binary (op : BinaryOp) (left right : Expr)
  | ite (condition yes no : Expr)

/-- Apply an operator to one value. -/
def UnaryOp.apply : UnaryOp → Value → Value
  | .some, v => .some v
  | .not, v => .bool !v.truthy
  | .length, .str s => .int (Int64.ofNat s.length)
  | .length, .list vs => .int (Int64.ofNat vs.length)
  | .length, _ => .int 0
  | .text, v => .str v.text
  | .int, v => .int v.toInt

/-- Apply an operator to two values.  Arithmetic wraps at 64 bits; a remainder has the sign of
the dividend and is zero when the divisor is. -/
def BinaryOp.apply : BinaryOp → Value → Value → Value
  | .add, a, b => .int (a.toInt + b.toInt)
  | .sub, a, b => .int (a.toInt - b.toInt)
  | .mul, a, b => .int (a.toInt * b.toInt)
  | .rem, a, b => .int (if b.toInt = 0 then 0 else a.toInt % b.toInt)
  | .lt, a, b => .bool (a.toInt < b.toInt)
  | .eq, a, b => .bool (a == b)
  | .concat, a, b => .str (a.text ++ b.text)
  | .push, .list vs, b => .list (vs ++ [b])
  | .push, a, b => .list [a, b]

namespace Expr

mutual

/-- The value of an expression.  A name that is not bound stands for unit. -/
def eval (env : Env) : Expr → Value
  | .literal v => v
  | .var name => (env.lookup name).getD .unit
  | .list items => .list (evalAll env items)
  | .unary op arg => op.apply (eval env arg)
  | .binary op left right => op.apply (eval env left) (eval env right)
  | .ite condition yes no => if (eval env condition).truthy then eval env yes else eval env no

/-- The value of each expression. -/
def evalAll (env : Env) : List Expr → List Value
  | [] => []
  | e :: es => eval env e :: evalAll env es

end

end Expr

end Deferred.Scenario
