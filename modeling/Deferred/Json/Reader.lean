import Deferred.Json.Basic
import Deferred.Json.Token

/-!
# Reader — JSON data from text

* `Json.ofTokens?` — the value that a list of tokens starts with, and the tokens behind it;
* `Json.parse?` — the value of a whole text.
-/

namespace Deferred.Json

mutual

/-- The value at the start of a list of tokens.  Every round takes at least one token. -/
def ofTokens? : Nat → List Token → Option (Json × List Token)
  | 0, _ => none
  | rounds + 1, tokens =>
      match tokens with
      | .null :: rest => some (.null, rest)
      | .bool b :: rest => some (.bool b, rest)
      | .int n :: rest => some (.int n, rest)
      | .float x :: rest => some (.float x, rest)
      | .str s :: rest => some (.str s, rest)
      | .openArray :: .closeArray :: rest => some (.arr [], rest)
      | .openArray :: rest => itemsOfTokens? rounds rest []
      | .openObject :: .closeObject :: rest => some (.obj [], rest)
      | .openObject :: rest => fieldsOfTokens? rounds rest []
      | _ => none

/-- The rest of an array that goes on with an item; the items before it are held in reverse. -/
def itemsOfTokens? : Nat → List Token → List Json → Option (Json × List Token)
  | 0, _, _ => none
  | rounds + 1, tokens, read =>
      match ofTokens? rounds tokens with
      | some (item, .comma :: rest) => itemsOfTokens? rounds rest (item :: read)
      | some (item, .closeArray :: rest) => some (.arr (item :: read).reverse, rest)
      | _ => none

/-- The rest of an object that goes on with a key; the fields before it are held in reverse.  Of
a key that is written twice only the last value counts. -/
def fieldsOfTokens? : Nat → List Token → List (String × Json) → Option (Json × List Token)
  | 0, _, _ => none
  | rounds + 1, tokens, read =>
      match tokens with
      | .str key :: .colon :: tokens =>
          let others := read.filter fun (k, _) => k != key
          match ofTokens? rounds tokens with
          | some (value, .comma :: rest) => fieldsOfTokens? rounds rest ((key, value) :: others)
          | some (value, .closeObject :: rest) =>
              some (.obj ((key, value) :: others).reverse, rest)
          | _ => none
      | _ => none

end

/-- The value of a text that holds exactly one. -/
def parse? (text : String) : Option Json := do
  let tokens ← Token.lex? text
  match ofTokens? (tokens.length + 1) tokens with
  | some (value, []) => some value
  | _ => none

end Deferred.Json
