import AdditiveSchema.Column
import AdditiveSchema.Dialect.Basic
import AdditiveSchema.Keyed

/-!
# Declarations

A table is declared by a directive for the table, one directive for each field, and adjustments
for single dialects. Declarations are plain data; their directives are read when the declared
schema is built.
-/

namespace AdditiveSchema

/-- A declared field. -/
structure ColumnDef where
  /-- The name of the field, and of its column unless the directive renames it. -/
  field : String
  kind : FieldKind
  directive : String := ""
  deriving DecidableEq, Repr

/-- What one dialect changes of a column. What is not set stays as the directive says. -/
structure ColumnOverride where
  columnType : Option String := none
  default : Option String := none
  autoincrement : Option Autoincrement := none
  generated : Option Generated := none
  notNull : Option Bool := none
  onUpdateCurrentTimestamp : Bool := false
  /-- The dialect does not have the column. -/
  ignore : Bool := false
  deriving DecidableEq, Repr, Inhabited

namespace ColumnOverride

/-- The override takes the column out of the schema. -/
def dropsColumn (o : ColumnOverride) : Bool :=
  o.ignore || o.columnType == some ignoredType

/-- The column with the changes of the override. -/
def apply (o : ColumnOverride) (c : Column) : Column :=
  { c with
    columnType := o.columnType.getD c.columnType
    default := o.default.or c.default
    autoincrement := o.autoincrement.getD c.autoincrement
    generated := o.generated.or c.generated
    notNull := o.notNull.getD c.notNull
    onUpdateCurrentTimestamp := o.onUpdateCurrentTimestamp || c.onUpdateCurrentTimestamp }

end ColumnOverride

/-- A named check. -/
structure CheckDef where
  name : String
  expr : String
  deriving DecidableEq, Repr

/-- What one dialect changes of a table. -/
structure Customization where
  /-- The schema of the table, instead of the declared one. -/
  schema : Option String := none
  /-- The dialect does not have the table. -/
  skip : Bool := false
  /-- Changes of columns, by column name or field name, in the order of the names. -/
  columns : List (String × ColumnOverride) := []
  /-- More indices, as the value of a table modifier `index`. -/
  indices : List String := []
  /-- More checks. -/
  checks : List CheckDef := []
  deriving DecidableEq, Repr, Inhabited

namespace Customization

/-- The customization with the change of one column set. -/
def setColumn (c : Customization) (name : String) (o : ColumnOverride) : Customization :=
  { c with columns := Keyed.insert Prod.fst (name, o) c.columns }

/-- The change of a column: the one under its name, or else the one under its field. -/
def column? (c : Customization) (name field : String) : Option ColumnOverride :=
  (c.columns.lookup name).or (c.columns.lookup field)

end Customization

/-- A declared table. -/
structure TableDef where
  /-- The name of the table, unless its directive renames it. -/
  name : String := ""
  /-- The schema of the table. Empty for the default. -/
  schema : String := ""
  directive : String := ""
  columns : List ColumnDef := []
  /-- The customizations, in the order of the dialects. -/
  dialects : List (Dialect × Customization) := []
  deriving DecidableEq, Repr, Inhabited

namespace TableDef

/-- The definition with the customization of one dialect set. -/
def customize (t : TableDef) (d : Dialect) (c : Customization) : TableDef :=
  { t with dialects := Keyed.insert Prod.fst (d, c) t.dialects }

/-- The customization for the dialect. -/
def customization? (t : TableDef) (d : Dialect) : Option Customization :=
  t.dialects.lookup d

/-- The schema of the table in the dialect. -/
def schemaIn (t : TableDef) (d : Dialect) : String :=
  ((t.customization? d).bind (·.schema)).getD t.schema

/-- The dialect does not have the table. -/
def isSkippedIn (t : TableDef) (d : Dialect) : Bool :=
  (t.customization? d).any (·.skip)

end TableDef

end AdditiveSchema
