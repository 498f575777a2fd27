import Deferred.Json.Basic
import Deferred.Text.Decimal

/-!
# Printer — JSON data as text on one line

* `Json.render` — the text, without blanks between tokens.
-/

namespace Deferred.Json

/-- How one character is written in a JSON string. -/
def escape (c : Char) : String :=
  match c with
  | '"' => "\\\""
  | '\\' => "\\\\"
  | '\n' => "\\n"
  | '\r' => "\\r"
  | '\t' => "\\t"
  | c =>
      if c < ' ' then
        let digits := Nat.toDigits 16 c.toNat
        "\\u" ++ String.ofList (List.replicate (4 - digits.length) '0' ++ digits)
      else c.toString

/-- A JSON string. -/
def quote (s : String) : String :=
  "\"" ++ String.join (s.toList.map escape) ++ "\""

mutual

/-- The text of a value. -/
def render : Json → String
  | .null => "null"
  | .bool true => "true"
  | .bool false => "false"
  | .int n => toString n
  | .float x => Text.decimal x
  | .str s => quote s
  | .arr items => "[" ++ ",".intercalate (renderItems items) ++ "]"
  | .obj fields => "\x7b" ++ ",".intercalate (renderFields fields) ++ "\x7d"

/-- The text of each item. -/
def renderItems : List Json → List String
  | [] => []
  | item :: rest => render item :: renderItems rest

/-- The text of each field. -/
def renderFields : List (String × Json) → List String
  | [] => []
  | (key, value) :: rest => (quote key ++ ":" ++ render value) :: renderFields rest

end

end Deferred.Json
