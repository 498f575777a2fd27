/-!
# Universe — values that carry their type

Links of one queue may take and give values of different types.  The queue itself holds no
types, so a value that crosses a link is boxed together with the code of its type, and whoever
opens the box says which type it asks for.

* `Typed.Universe` — codes of types;
* `Typed.Boxed` — a value with the code of its type;
* `Typed.Boxed.as?` — open a box as a value of a given type.
-/

namespace Deferred.Typed

/-- Codes of types, each with the type it stands for and its name in reports. -/
structure Universe where
  Ty : Type
  [decEq : DecidableEq Ty]
  El : Ty → Type
  name : Ty → String

instance (U : Universe) : DecidableEq U.Ty := U.decEq

/-- A value with the code of its type. -/
structure Boxed (U : Universe) where
  type : U.Ty
  value : U.El type

namespace Boxed

variable {U : Universe}

/-- The value in a box, if it is of the type that is asked for. -/
def as? (b : Boxed U) (t : U.Ty) : Option (U.El t) :=
  if h : b.type = t then some (h ▸ b.value) else none

@[simp] theorem as?_mk (t : U.Ty) (x : U.El t) : (Boxed.mk t x).as? t = some x := by
  simp [as?]

end Boxed

end Deferred.Typed
