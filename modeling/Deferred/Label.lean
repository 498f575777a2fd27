import Deferred.Text.Quoted
import Deferred.Text.Shown

/-!
# Label — the name of the operation that a command will run

A command carries a label from the moment it is made and keeps it whatever is chained behind
it, so a test can ask which operation comes next without running it.

* `Label` — a name; labels are equal and ordered as their texts are;
* `Label.shown` — its rendered form.
-/

namespace Deferred

/-- The name of an operation. -/
structure Label where
  text : String
  deriving DecidableEq, Inhabited

namespace Label

instance : Coe String Label := ⟨Label.mk⟩

instance : ToString Label := ⟨Label.text⟩

/-- Labels are ordered by the code points of their texts, which is also the order of the bytes
of their UTF-8 forms. -/
instance : Ord Label where
  compare a b := compareOfLessAndEq a.text b.text

/-- The later of two labels in their order, the second one if they are equal. -/
def latest (a b : Label) : Label :=
  if compare a b = .gt then a else b

/-- The rendered form of a label. -/
def shown (l : Label) : Shown :=
  .tuple "Label" [.atom (Text.quoted l.text)]

end Label

end Deferred
