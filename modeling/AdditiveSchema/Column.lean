import AdditiveSchema.Kind
import AdditiveSchema.Name

/-!
# Columns

A column as it is declared or as a database reports it. What a database does not report is left
at its default and is never compared.
-/

namespace AdditiveSchema

/-- The expression that generates the values of a column. -/
structure Generated where
  expr : String
  /-- The values are stored, not computed when they are read. -/
  stored : Bool := false
  deriving DecidableEq, Repr, Inhabited

/-- A reference from one column to a column of another table. -/
structure ForeignKey where
  table : QualifiedName
  column : String
  onUpdate : Option ReferentialAction := none
  onDelete : Option ReferentialAction := none
  deriving DecidableEq, Repr, Inhabited

/-- A column of a table. -/
structure Column where
  name : String
  columnType : String := ""
  /-- The declared kind. No database reports it. -/
  kind : Option FieldKind := none
  notNull : Bool := false
  /-- The column is the whole primary key of its table. -/
  primaryKey : Bool := false
  unique : Bool := false
  autoincrement : Autoincrement := .none
  default : Option String := none
  generated : Option Generated := none
  collation : Option String := none
  references : Option ForeignKey := none
  /-- MySQL sets the column to the current time whenever its row changes. -/
  onUpdateCurrentTimestamp : Bool := false
  deriving DecidableEq, Repr, Inhabited

/-- The type that takes a column out of the schema: a lone null character. -/
def ignoredType : String := "\x00"

namespace Column

/-- The column has the type that takes it out of the schema. -/
def isIgnored (c : Column) : Bool :=
  c.columnType == ignoredType

/-- The column as the primary key of its table, which no row may leave out. -/
def asPrimaryKey (c : Column) : Column :=
  { c with primaryKey := true, notNull := true }

end Column

end AdditiveSchema
