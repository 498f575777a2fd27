/-!
# Decimal — shortest decimal text of a binary float

A double stands for every real that rounds to it.  Its text has the fewest digits that still
lie in that interval, and of those the nearest to the double itself; of two that are as near the
even one is taken.  All arithmetic is exact.

* `Text.Interval` — a double's value and the ends of its rounding interval, on one grid;
* `Text.Interval.shortest` — the digits and the power of ten they are multiplied by;
* `Text.positional`, `Text.scientific` — digits without and with an exponent;
* `Text.decimal` — the text of a double, with an exponent only if it is very large or small.
-/

namespace Deferred.Text

/-- A positive value between the ends of its rounding interval: each of the three numbers is
multiplied by `scaleUp / scaleDown`. -/
structure Interval where
  low : Nat
  value : Nat
  high : Nat
  scaleUp : Nat
  scaleDown : Nat
  closed : Bool

namespace Interval

/-- The interval of the double with the given mantissa and biased exponent fields.  Below a
power of two the next double is only half as far away as above it. -/
def ofFields (mantissa exponent : Nat) : Interval :=
  let whole := if exponent = 0 then mantissa else mantissa + Nat.pow 2 52
  let shift : Int := (max exponent 1 : Nat) - 1077
  { low := if mantissa = 0 && exponent > 1 then 4 * whole - 1 else 4 * whole - 2
    value := 4 * whole
    high := 4 * whole + 2
    scaleUp := Nat.pow 2 shift.toNat
    scaleDown := Nat.pow 2 (-shift).toNat
    closed := whole % 2 = 0 }

/-- Whether `digits · up / down` lies in the interval. -/
def contains (i : Interval) (digits up down : Nat) : Bool :=
  let point := digits * up * i.scaleDown
  let low := i.low * i.scaleUp * down
  let high := i.high * i.scaleUp * down
  if i.closed then low ≤ point && point ≤ high else low < point && point < high

/-- The nearer of two neighbours on a grid: `excess` is how far the value lies above the lower one,
in parts of which `unit` make up the way to the upper one.  In the middle the even one counts as
nearer. -/
def nearer (below excess unit : Nat) : Nat :=
  if 2 * excess < unit || (2 * excess = unit && below % 2 = 0) then below else below + 1

/-- The multiple of `10 ^ exponent` in the interval that is nearest to the value. -/
def onGrid? (i : Interval) (exponent : Int) : Option (Nat × Int) :=
  let up := Nat.pow 10 exponent.toNat
  let down := Nat.pow 10 (-exponent).toNat
  let value := i.value * i.scaleUp * down
  let unit := up * i.scaleDown
  let below := value / unit
  match i.contains below up down, i.contains (below + 1) up down with
  | true, true => some (nearer below (value - below * unit) unit, exponent)
  | true, false => some (below, exponent)
  | false, true => some (below + 1, exponent)
  | false, false => none

/-- The digits on the coarsest grid that has a point in the interval. -/
def shortest (i : Interval) : Nat × Int :=
  ((List.range 634).findSome? fun (step : Nat) => i.onGrid? (309 - step)).getD (0, 0)

end Interval

/-! ## Notation -/

/-- The text of `digits · 10 ^ exponent` without an exponent, with a point and at least one digit
on either side of it. -/
def positional (digits : Nat) (exponent : Int) : String :=
  let written := Nat.toDigits 10 digits
  if 0 ≤ exponent then
    String.ofList (written ++ List.replicate exponent.toNat '0') ++ ".0"
  else
    let places := (-exponent).toNat
    let padded := List.replicate (places + 1 - written.length) '0' ++ written
    let whole := padded.length - places
    String.ofList (padded.take whole) ++ "." ++ String.ofList (padded.drop whole)

/-- The power of ten that the first digit of `digits · 10 ^ exponent` stands for. -/
def magnitude (digits : Nat) (exponent : Int) : Int :=
  exponent + (Nat.toDigits 10 digits).length - 1

/-- The text of `digits · 10 ^ exponent` with one digit before the point and a signed exponent.
A single digit has no point behind it. -/
def scientific (digits : Nat) (exponent : Int) : String :=
  let power := magnitude digits exponent
  let written := match Nat.toDigits 10 digits with
    | first :: second :: rest => first :: '.' :: second :: rest
    | single => single
  String.ofList written ++ (if 0 ≤ power then "e+" else "e-") ++ toString power.natAbs

/-- The shortest text of a finite double.  Numbers from `10 ^ -5` to below `10 ^ 16` are written
without an exponent. -/
def decimal (x : Float) : String :=
  let bits := x.toBits.toNat
  let sign := if Nat.pow 2 63 ≤ bits then "-" else ""
  let mantissa := bits % Nat.pow 2 52
  let exponent := bits / Nat.pow 2 52 % Nat.pow 2 11
  if mantissa = 0 && exponent = 0 then sign ++ "0.0"
  else
    let (digits, power) := (Interval.ofFields mantissa exponent).shortest
    let first := magnitude digits power
    sign ++ (if -5 ≤ first && first < 16 then positional digits power
      else scientific digits power)

end Deferred.Text
