import Deferred.Text.Printable

/-!
# Quoted — a string as it is written inside a rendered value

The text stands between double quotes.  Quotes, backslashes and the common blanks have short
escapes; any other character that is not printable is written by its code point.

* `Text.escape` — how one character is written;
* `Text.quoted` — how a whole string is written.
-/

namespace Deferred.Text

/-- A code point in lower case hexadecimal between braces, without leading zeros. -/
def codePoint (c : Char) : String :=
  "\\u\x7b" ++ String.ofList (Nat.toDigits 16 c.toNat) ++ "\x7d"

/-- How one character is written between double quotes. -/
def escape (c : Char) : String :=
  match c with
  | '"' => "\\\""
  | '\\' => "\\\\"
  | '\n' => "\\n"
  | '\r' => "\\r"
  | '\t' => "\\t"
  | '\x00' => "\\0"
  | c => if isPrintable c then c.toString else codePoint c

/-- A string between double quotes. -/
def quoted (s : String) : String :=
  "\"" ++ String.join (s.toList.map escape) ++ "\""

end Deferred.Text
