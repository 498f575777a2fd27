/-!
# Json — the data that labels, faults and traces are stored as

* `Json` — a value; whole numbers that fit into 64 bits are kept apart from all others;
* `Json.field?` — look a key up in an object.
-/

namespace Deferred

/-- A value of JSON data.  An object has each key once. -/
inductive Json where
  | null
  | bool (value : Bool)
  | int (value : Int)
  | float (value : Float)
  | str (value : String)
  | arr (items : List Json)
  | obj (fields : List (String × Json))
  deriving Inhabited

namespace Json

/-- The value behind a key. -/
def lookup? (key : String) : List (String × Json) → Option Json
  | [] => none
  | (k, value) :: rest => if k = key then some value else lookup? key rest

/-- The value behind a key of an object. -/
def field? (key : String) : Json → Option Json
  | .obj fields => lookup? key fields
  | _ => none

end Json

end Deferred
