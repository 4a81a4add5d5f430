import AdditiveSchema.Dialect.Basic
import AdditiveSchema.Name

/-!
# Identifiers

Every name in a statement stands between quote characters, with each quote character inside
written twice, so no name can end its quotes early.
-/

namespace AdditiveSchema.Dialect

/-- The character around identifiers. -/
def quoteMark : Dialect → Char
  | .mysql => '\x60'
  | _ => '"'

/-- The name as an identifier. -/
def quote (d : Dialect) (name : String) : String :=
  Text.enclose d.quoteMark name

/-- The name as an identifier, with its schema in front if it has one. -/
def quoteName (d : Dialect) (n : QualifiedName) : String :=
  if n.schema.isEmpty then d.quote n.name else d.quote n.schema ++ "." ++ d.quote n.name

/-- The names as identifiers between commas. -/
def quoteList (d : Dialect) (names : List String) : String :=
  ", ".intercalate (names.map d.quote)

end AdditiveSchema.Dialect
