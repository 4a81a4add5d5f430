import AdditiveSchema.Declared.Issue
import AdditiveSchema.Directive.Modifier

/-!
# Values with issues

A step of building a schema gives a value and the issues that it found, and never stops. Issues
are collected in the order of the steps.
-/

namespace AdditiveSchema

/-- A value and the issues found on the way to it. -/
structure Checked (α : Type) where
  value : α
  issues : List Issue := []

namespace Checked

instance : Monad Checked where
  pure a := { value := a }
  bind x f := { value := (f x.value).value, issues := x.issues ++ (f x.value).issues }

/-- Reports one issue. -/
def report (issue : Issue) : Checked Unit :=
  { value := (), issues := [issue] }

@[simp] theorem value_pure {α : Type} (a : α) : (pure a : Checked α).value = a := rfl

@[simp] theorem issues_pure {α : Type} (a : α) : (pure a : Checked α).issues = [] := rfl

@[simp] theorem value_bind {α β : Type} (x : Checked α) (f : α → Checked β) :
    (x >>= f).value = (f x.value).value := rfl

@[simp] theorem issues_bind {α β : Type} (x : Checked α) (f : α → Checked β) :
    (x >>= f).issues = x.issues ++ (f x.value).issues := rfl

@[simp] theorem issues_report (issue : Issue) : (report issue).issues = [issue] := rfl

instance : LawfulMonad Checked :=
  LawfulMonad.mk' Checked
    (fun x => by
      show Checked.mk x.value (x.issues ++ []) = x
      simp)
    (fun a f => by
      show Checked.mk (f a).value ([] ++ (f a).issues) = f a
      simp)
    (fun x f g => by
      show Checked.mk _ ((x.issues ++ _) ++ _) = Checked.mk _ (x.issues ++ (_ ++ _))
      simp [Bind.bind])

/-- The value of a modifier, or an issue and nothing. -/
def ofWord {ε α : Type} (field : String) (m : Directive.Modifier) (message : ε → String) :
    Except ε α → Checked (Option α)
  | .ok a => pure (some a)
  | .error e => do
    report (.invalidValue field m.name m.value (message e))
    return none

/-- Reads a directive. If its braces are wrong, that is the issue and there is nothing. -/
def ofLexed {α : Type} (field directive : String) :
    Except Directive.LexError α → Checked (Option α)
  | .ok a => pure (some a)
  | .error e => do
    report (.lex field directive e)
    return none

end Checked

end AdditiveSchema
