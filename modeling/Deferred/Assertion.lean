import Deferred.Effect.Basic

/-!
# Assertion — what a test expects an effect to be

* `AssertionFailure` — how an effect differs from what was expected;
* `Effect.expectSuccess`, `Effect.expectFailure`, `Effect.expectCommand` — the checks.
-/

namespace Deferred

variable {S : Signature}

/-- How an effect differs from what was expected: it is of another kind, or it is of the right
kind and holds something else. -/
inductive AssertionFailure where
  | wrongKind (expected got : Shown)
  | wrongContent (got expected : Shown)

/-- The sentence that reports the difference. -/
def AssertionFailure.message : AssertionFailure → String
  | .wrongKind expected got => "Expected " ++ expected.compact ++ ", got " ++ got.compact
  | .wrongContent got expected =>
      "assertion `left == right` failed\n  left: " ++ got.compact
        ++ "\n right: " ++ expected.compact

/-- The rendered form of a kind of effect, with its content if one is expected. -/
def expectedKind (name : String) : Option Shown → Shown
  | none => .atom name
  | some content => .tuple name [content]

/-- Compare a content with the expected one, if there is one. -/
def assertContent {α : Type} [BEq α] (render : α → Shown) (got : α) :
    Option α → Except AssertionFailure Unit
  | none => .ok ()
  | some expected =>
      if got == expected then .ok () else .error (.wrongContent (render got) (render expected))

namespace Effect

variable (value : S.Value → Shown) (error : S.Error → Shown)

/-- Expect a success, with the given value if there is one. -/
def expectSuccess [BEq S.Value] (e : Effect S) (expected : Option S.Value) :
    Except AssertionFailure Unit :=
  match e with
  | .success got => assertContent value got expected
  | other => .error (.wrongKind (expectedKind "Success" (expected.map value))
      (other.shown value error))

/-- Expect a failure, with the given error if there is one. -/
def expectFailure [BEq S.Error] (e : Effect S) (expected : Option S.Error) :
    Except AssertionFailure Unit :=
  match e with
  | .failure got => assertContent error got expected
  | other => .error (.wrongKind (expectedKind "Failure" (expected.map error))
      (other.shown value error))

/-- Expect a command with the given label.  Its operation is not invoked. -/
def expectCommand (e : Effect S) (label : String) : Except AssertionFailure Unit :=
  let render (text : String) : Shown := .atom (Text.quoted text)
  match e with
  | .command c => assertContent render c.label.text (some label)
  | other => .error (.wrongKind (expectedKind "Command" (some (render label)))
      (other.shown value error))

end Effect

end Deferred
