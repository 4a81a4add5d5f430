import AdditiveSchema.Text.Quoted

/-!
# Errors of directives

A directive can only fail on its braces. An error says where the brace stands, in bytes of the
whole text, and shows the text from the start of the token that failed.
-/

namespace AdditiveSchema.Directive

/-- What is wrong with the braces. -/
inductive Reason where
  /-- A closing brace has no opening one. -/
  | unmatchedClosing
  /-- An opening brace is never closed. -/
  | unclosed
  deriving DecidableEq, Repr

/-- The wording of a `Reason`. -/
def Reason.message : Reason → String
  | .unmatchedClosing => "too many closing braces"
  | .unclosed => "unclosed brace"

/-- A directive with a wrong brace. -/
structure LexError where
  /-- The offset of the brace in bytes. -/
  position : Nat
  reason : Reason
  /-- The text from the start of the token that holds the brace. -/
  fragment : String
  deriving DecidableEq, Repr

/-- The wording of a `LexError`. -/
def LexError.message (e : LexError) : String :=
  e.reason.message ++ " at byte " ++ toString e.position ++ " in " ++ Text.quoted e.fragment

end AdditiveSchema.Directive
