import AdditiveSchema.Dialect.Basic
import AdditiveSchema.Text.Numeral

/-!
# Default expressions

A default is SQL text. MySQL and SQLite take a literal as it stands and need parentheses around
anything else, and each dialect has its own words for the current time.
-/

namespace AdditiveSchema.DefaultExpr

open AdditiveSchema.Text

/-- Goes through a text to the character that closes what its first character opened: a quote, or
a parenthesis outside of quotes. A doubled quote inside quotes is an escape. The answer is whether
that character is the last one. -/
def closesAtEnd (depth : Nat) (inQuotes : Bool) : List Char → Bool
  | [] => false
  | '\'' :: '\'' :: cs =>
    if inQuotes then closesAtEnd depth true cs
    else closesAtEnd depth true ('\'' :: cs)
  | c :: cs =>
    if c = '\'' then
      if inQuotes && depth == 0 then cs.isEmpty else closesAtEnd depth (!inQuotes) cs
    else if c = '(' && !inQuotes then closesAtEnd (depth + 1) inQuotes cs
    else if c = ')' && !inQuotes then
      if depth ≤ 1 then cs.isEmpty else closesAtEnd (depth - 1) inQuotes cs
    else closesAtEnd depth inQuotes cs
termination_by cs => cs.length

/-- The words that are literals. -/
def literalWords : List String :=
  ["NULL", "TRUE", "FALSE", "CURRENT_TIMESTAMP", "CURRENT_DATE", "CURRENT_TIME"]

/-- The text is a number, one quoted or parenthesised text, or one of `literalWords` in any
case. -/
def isLiteral (expr : String) : Bool :=
  match trim expr.toList with
  | [] => false
  | c :: cs =>
    isNumeral (c :: cs) ||
      if c = '\'' ∨ c = '(' then closesAtEnd 0 false (c :: cs)
      else literalWords.contains (asciiUpper (String.ofList (c :: cs)))

/-- The ways to write the current time, without blanks and in upper case. -/
def currentTimes : List String :=
  ["DATETIME('NOW')", "NOW()", "CURRENT_TIMESTAMP", "CURRENT_TIMESTAMP()"]

/-- The text stands for the current time. -/
def isCurrentTime (expr : String) : Bool :=
  currentTimes.contains (asciiUpper (withoutBlanks expr))

/-- A literal as it stands, anything else in parentheses. -/
def parenthesized (expr : String) : String :=
  if isLiteral expr then expr else "(" ++ expr ++ ")"

end AdditiveSchema.DefaultExpr

namespace AdditiveSchema

/-- The default expression in the words of the dialect. -/
def Dialect.renderDefault (d : Dialect) (expr : String) : String :=
  match d with
  | .postgres => if DefaultExpr.isCurrentTime expr then "NOW()" else expr
  | .mysql =>
    if DefaultExpr.isCurrentTime expr then "CURRENT_TIMESTAMP" else DefaultExpr.parenthesized expr
  | .sqlite =>
    if DefaultExpr.isCurrentTime expr then "(DATETIME('now'))" else DefaultExpr.parenthesized expr

end AdditiveSchema
