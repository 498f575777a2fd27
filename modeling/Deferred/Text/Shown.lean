/-!
# Shown — the rendered form of a value, on one line or on many

Every value that an answer describes is first turned into a `Shown`: a tree of names, tuples,
records and lists.  The tree is then laid out in one of two ways:

* `Shown.compact` — on one line;
* `Shown.pretty` — one field or item per line, each level four columns further in.
-/

namespace Deferred

/-- The shape of a rendered value. -/
inductive Shown where
  | atom (text : String)
  | tuple (name : String) (fields : List Shown)
  | record (name : String) (fields : List (String × Shown))
  | list (items : List Shown)

namespace Shown

/-! ## On one line -/

mutual

/-- The value on one line. -/
def compact : Shown → String
  | .atom text => text
  | .tuple name fields => name ++ "(" ++ ", ".intercalate (compactItems fields) ++ ")"
  | .record name fields =>
      name ++ " \x7b " ++ ", ".intercalate (compactFields fields) ++ " \x7d"
  | .list items => "[" ++ ", ".intercalate (compactItems items) ++ "]"

/-- Each item on one line. -/
def compactItems : List Shown → List String
  | [] => []
  | item :: rest => compact item :: compactItems rest

/-- Each field on one line, behind its name. -/
def compactFields : List (String × Shown) → List String
  | [] => []
  | (name, field) :: rest => (name ++ ": " ++ compact field) :: compactFields rest

end

/-! ## On many lines -/

/-- Four columns further in. -/
def indent (lines : List String) : List String :=
  lines.map ("    " ++ ·)

/-- Put a text in front of the first line. -/
def labelled (label : String) : List String → List String
  | [] => [label]
  | first :: rest => (label ++ first) :: rest

/-- Put a comma behind the last line. -/
def terminated : List String → List String
  | [] => [","]
  | [last] => [last ++ ","]
  | line :: rest => line :: terminated rest

mutual

/-- The lines of the value. -/
def lines : Shown → List String
  | .atom text => [text]
  | .tuple name fields => (name ++ "(") :: indent (itemLines fields) ++ [")"]
  | .record name fields => (name ++ " \x7b") :: indent (fieldLines fields) ++ ["\x7d"]
  | .list [] => ["[]"]
  | .list (item :: rest) => "[" :: indent (terminated (lines item) ++ itemLines rest) ++ ["]"]

/-- The lines of each item, a comma behind each. -/
def itemLines : List Shown → List String
  | [] => []
  | item :: rest => terminated (lines item) ++ itemLines rest

/-- The lines of each field behind its name, a comma behind each. -/
def fieldLines : List (String × Shown) → List String
  | [] => []
  | (name, field) :: rest => terminated (labelled (name ++ ": ") (lines field)) ++ fieldLines rest

end

/-- The value with one field or item per line. -/
def pretty (s : Shown) : String :=
  "\n".intercalate s.lines

end Shown

end Deferred
