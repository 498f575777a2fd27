/-!
# Token — the words of JSON text

* `Json.Token` — punctuation, the three constants, numbers and strings;
* `Json.Token.number?` — a numeral is whole if it is written so and fits into 64 bits;
* `Json.Token.lex?` — all tokens of a text, `none` at the first character that starts none.
-/

namespace Deferred.Json

/-- A word of JSON text. -/
inductive Token where
  | openArray
  | closeArray
  | openObject
  | closeObject
  | colon
  | comma
  | null
  | bool (value : Bool)
  | int (value : Int)
  | float (value : Float)
  | str (value : String)

namespace Token

/-! ## Numbers -/

/-- Append decimal digits to a significand for as long as it stays below `2 ^ 64`; also the
digits that were left over. -/
def gather (significand : Nat) : List Char → Nat × List Char
  | [] => (significand, [])
  | d :: rest =>
      let next := significand * 10 + (d.toNat - '0'.toNat)
      if next < Nat.pow 2 64 then gather next rest else (significand, d :: rest)

/-- `significand · 10 ^ exponent` by one multiplication or division, after as many divisions by
`10 ^ 308` as a very small exponent needs; `none` when the result is infinite. -/
def scale? (significand : Float) (exponent : Int) : Nat → Option Float
  | 0 => some 0.0
  | rounds + 1 =>
      if exponent.natAbs ≤ 308 then
        let power := Float.ofScientific 1 false exponent.natAbs
        if 0 ≤ exponent then
          let product := significand * power
          if product.isInf then none else some product
        else some (significand / power)
      else if significand == 0.0 then some significand
      else if 0 ≤ exponent then none
      else scale? (significand / Float.ofScientific 1 false 308) (exponent + 308) rounds

/-- A numeral from its sign, its digits before and after the point, and its exponent. -/
def number? (negative : Bool) (whole fraction : List Char) (exponent : Option Int) :
    Option Token :=
  let (significand, beyond) := gather 0 whole
  if fraction.isEmpty && exponent.isNone && beyond.isEmpty
      && (!negative || (0 < significand && significand ≤ Nat.pow 2 63)) then
    some (.int (if negative then -significand else significand))
  else
    let (significand, left) := gather significand fraction
    let shift : Int := beyond.length - (fraction.length - left.length : Nat)
    (scale? significand.toUInt64.toFloat (shift + exponent.getD 0) 4).map fun x =>
      .float (if negative then -x else x)

/-- The digits at the start of a text and what follows them. -/
def digits (cs : List Char) : List Char × List Char :=
  (cs.takeWhile Char.isDigit, cs.dropWhile Char.isDigit)

/-- The value of a list of digits. -/
def digitsValue (ds : List Char) : Nat :=
  ds.foldl (fun n d => n * 10 + (d.toNat - '0'.toNat)) 0

/-- The exponent at the start of a text, if there is one, and what follows it. -/
def exponent? (cs : List Char) : Option (Option Int × List Char) :=
  let read (negative : Bool) (cs : List Char) : Option (Option Int × List Char) :=
    let (ds, rest) := digits cs
    if ds.isEmpty then none
    else some (some (if negative then -digitsValue ds else digitsValue ds), rest)
  match cs with
  | e :: rest =>
      if e = 'e' || e = 'E' then
        match rest with
        | '+' :: rest => read false rest
        | '-' :: rest => read true rest
        | rest => read false rest
      else some (none, cs)
  | [] => some (none, [])

/-- The digits behind a point at the start of a text, if there is one, and what follows. -/
def fraction? (cs : List Char) : Option (List Char × List Char) :=
  match cs with
  | '.' :: rest =>
      let (ds, rest) := digits rest
      if ds.isEmpty then none else some (ds, rest)
  | cs => some ([], cs)

/-- The numeral at the start of a text.  A leading zero stands alone. -/
def lexNumber? (cs : List Char) : Option (Token × List Char) :=
  let (negative, cs) := match cs with
    | '-' :: rest => (true, rest)
    | cs => (false, cs)
  let (whole, rest) := digits cs
  match whole with
  | [] => none
  | '0' :: _ :: _ => none
  | whole => do
      let (fraction, rest) ← fraction? rest
      let (exponent, rest) ← exponent? rest
      let token ← number? negative whole fraction exponent
      return (token, rest)

/-! ## Strings -/

/-- The value of four hexadecimal digits. -/
def hex? (a b c d : Char) : Option Nat := do
  let digit? (x : Char) : Option Nat :=
    if x.isDigit then some (x.toNat - '0'.toNat)
    else if 'a' ≤ x && x ≤ 'f' then some (x.toNat - 'a'.toNat + 10)
    else if 'A' ≤ x && x ≤ 'F' then some (x.toNat - 'A'.toNat + 10)
    else none
  return (((← digit? a) * 16 + (← digit? b)) * 16 + (← digit? c)) * 16 + (← digit? d)

/-- The character that stands for itself behind a backslash, or is named there by a letter. -/
def shortEscape? : Char → Option Char
  | '"' => some '"'
  | '\\' => some '\\'
  | '/' => some '/'
  | 'b' => some '\x08'
  | 'f' => some '\x0c'
  | 'n' => some '\n'
  | 'r' => some '\r'
  | 't' => some '\t'
  | _ => none

/-- The rest of a string behind its opening quote, with the characters read so far in reverse.
A code point above the first 65536 is written as two halves. -/
def lexString? : List Char → List Char → Option (String × List Char)
  | '"' :: rest, read => some (String.ofList read.reverse, rest)
  | '\\' :: 'u' :: a :: b :: c :: d :: rest, read =>
      match hex? a b c d with
      | none => none
      | some unit =>
          if unit < 0xd800 || 0xdfff < unit then lexString? rest (Char.ofNat unit :: read)
          else if 0xdbff < unit then none
          else match rest with
            | '\\' :: 'u' :: a :: b :: c :: d :: rest =>
                match hex? a b c d with
                | none => none
                | some low =>
                    if 0xdc00 ≤ low && low ≤ 0xdfff then
                      lexString? rest
                        (Char.ofNat (0x10000 + (unit - 0xd800) * 0x400 + (low - 0xdc00)) :: read)
                    else none
            | _ => none
  | '\\' :: c :: rest, read =>
      match shortEscape? c with
      | none => none
      | some c => lexString? rest (c :: read)
  | c :: rest, read => if c < ' ' then none else lexString? rest (c :: read)
  | [], _ => none

/-! ## Tokens -/

/-- The token at the start of a text that does not start with a blank. -/
def next? : List Char → Option (Token × List Char)
  | '[' :: rest => some (.openArray, rest)
  | ']' :: rest => some (.closeArray, rest)
  | '\x7b' :: rest => some (.openObject, rest)
  | '\x7d' :: rest => some (.closeObject, rest)
  | ':' :: rest => some (.colon, rest)
  | ',' :: rest => some (.comma, rest)
  | '"' :: rest => (lexString? rest []).map fun (s, rest) => (.str s, rest)
  | 'n' :: 'u' :: 'l' :: 'l' :: rest => some (.null, rest)
  | 't' :: 'r' :: 'u' :: 'e' :: rest => some (.bool true, rest)
  | 'f' :: 'a' :: 'l' :: 's' :: 'e' :: rest => some (.bool false, rest)
  | cs => lexNumber? cs

/-- Whether a character may stand between tokens. -/
def isBlank (c : Char) : Bool :=
  c = ' ' || c = '\n' || c = '\r' || c = '\t'

/-- The tokens of a text behind those already read, which are held in reverse.  Every round
takes at least one character. -/
def lexFrom? : Nat → List Char → List Token → Option (List Token)
  | _, [], read => some read.reverse
  | 0, _, _ => none
  | rounds + 1, c :: cs, read =>
      if isBlank c then lexFrom? rounds cs read
      else match next? (c :: cs) with
        | none => none
        | some (token, rest) => lexFrom? rounds rest (token :: read)

/-- All tokens of a text. -/
def lex? (text : String) : Option (List Token) :=
  let cs := text.toList
  lexFrom? cs.length cs []

end Token

end Deferred.Json
