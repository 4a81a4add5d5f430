import AdditiveSchema.Json.Record
import AdditiveSchema.Reported.MySql
import AdditiveSchema.Reported.Postgres
import AdditiveSchema.Reported.Server
import AdditiveSchema.Reported.Sqlite

/-!
# Reports as JSON

The report of a database is an object with its default schema and its tables. A table has its
schema, its name and its rows, and each row is an array of values in a fixed order.
-/

namespace AdditiveSchema.Reported

/-- The entries of a list under a name, none if there is no such list. -/
def rowsUnder? {α : Type} (decode : Json → Option α) (name : String) (value : Json) :
    Option (List α) :=
  match value.field? name with
  | none | some .null => some []
  | some rows => Json.list? decode rows

/-- A text that may be `null` or missing. -/
def textUnder? (name : String) (value : Json) : Option (Option String) :=
  match value.field? name with
  | none => some none
  | some text => Json.nullable? Json.string? text

namespace Postgres

/-- A column. -/
def ColumnRow.ofJson? (value : Json) : Option ColumnRow := do
  let [name, columnType, notNull, default, identity, generated, collation] ← value.items? | none
  return {
    name := ← name.string?
    columnType := ← columnType.string?
    notNull := ← notNull.bool?
    default := ← Json.nullable? Json.string? default
    identity := ← identity.string?
    generated := ← generated.string?
    collation := ← Json.nullable? Json.string? collation }

/-- A constraint. -/
def ConstraintRow.ofJson? (value : Json) : Option ConstraintRow := do
  let [name, kind, check, columns] ← value.items? | none
  return {
    name := ← name.string?
    kind := ← kind.string?
    check := ← Json.nullable? Json.string? check
    columns := ← Json.list? Json.string? columns }

/-- A foreign key. -/
def ForeignKeyRow.ofJson? (value : Json) : Option ForeignKeyRow := do
  let [column, schema, table, targetColumn, onUpdate, onDelete] ← value.items? | none
  return {
    column := ← column.string?
    target := { schema := ← schema.string?, name := ← table.string? }
    targetColumn := ← targetColumn.string?
    onUpdate := ← onUpdate.string?
    onDelete := ← onDelete.string? }

/-- An index. -/
def IndexRow.ofJson? (value : Json) : Option IndexRow := do
  let [name, unique, method, predicate, keys, carried] ← value.items? | none
  return {
    name := ← name.string?
    unique := ← unique.bool?
    method := ← method.string?
    predicate := ← Json.nullable? Json.string? predicate
    keys := ← Json.list? Json.string? keys
    carried := ← Json.list? Json.string? carried }

/-- The rows about a table. -/
def Rows.ofJson? (value : Json) : Option Rows := do
  return {
    columns := ← rowsUnder? ColumnRow.ofJson? "columns" value
    constraints := ← rowsUnder? ConstraintRow.ofJson? "constraints" value
    foreignKeys := ← rowsUnder? ForeignKeyRow.ofJson? "foreign_keys" value
    indices := ← rowsUnder? IndexRow.ofJson? "indices" value }

end Postgres

namespace MySql

/-- A column. -/
def ColumnRow.ofJson? (value : Json) : Option ColumnRow := do
  let [name, columnType, nullable, default, extra, generation] ← value.items? | none
  return {
    name := ← name.string?
    columnType := ← columnType.string?
    nullable := ← nullable.string?
    default := ← Json.nullable? Json.string? default
    extra := ← extra.string?
    generation := ← Json.nullable? Json.string? generation }

/-- A constraint. -/
def ConstraintRow.ofJson? (value : Json) : Option ConstraintRow := do
  let [name, kind, columns, check] ← value.items? | none
  return {
    name := ← name.string?
    kind := ← kind.string?
    columns := ← Json.nullable? Json.string? columns
    check := ← Json.nullable? Json.string? check }

/-- One column of a foreign key. -/
def ForeignKeyRow.ofJson? (value : Json) : Option ForeignKeyRow := do
  let [name, column, schema, table, targetColumn, onUpdate, onDelete] ← value.items? | none
  return {
    name := ← name.string?
    column := ← column.string?
    target := { schema := ← schema.string?, name := ← table.string? }
    targetColumn := ← targetColumn.string?
    onUpdate := ← onUpdate.string?
    onDelete := ← onDelete.string? }

/-- An index. -/
def IndexRow.ofJson? (value : Json) : Option IndexRow := do
  let [name, nonUnique, method, keys] ← value.items? | none
  return {
    name := ← name.string?
    nonUnique := ← nonUnique.int?
    method := ← method.string?
    keys := ← Json.nullable? Json.string? keys }

/-- The rows about a table. -/
def Rows.ofJson? (value : Json) : Option Rows := do
  return {
    columns := ← rowsUnder? ColumnRow.ofJson? "columns" value
    constraints := ← rowsUnder? ConstraintRow.ofJson? "constraints" value
    foreignKeys := ← rowsUnder? ForeignKeyRow.ofJson? "foreign_keys" value
    indices := ← rowsUnder? IndexRow.ofJson? "indices" value }

end MySql

namespace Sqlite

/-- A column. -/
def ColumnRow.ofJson? (value : Json) : Option ColumnRow := do
  let [name, columnType, notNull, default, keyPosition, hidden] ← value.items? | none
  return {
    name := ← name.string?
    columnType := ← Json.nullable? Json.string? columnType
    notNull := ← notNull.int?
    default := ← Json.nullable? Json.string? default
    keyPosition := ← keyPosition.int?
    hidden := ← hidden.int? }

/-- An index. -/
def IndexRow.ofJson? (value : Json) : Option IndexRow := do
  return {
    name := ← (← value.field? "name").string?
    unique := ← (← value.field? "unique").int?
    origin := ← (← value.field? "origin").string?
    isPartial := ← (← value.field? "partial").int?
    keys := ← rowsUnder? (Json.nullable? Json.string?) "keys" value
    ddl := ← textUnder? "sql" value }

/-- One column of a foreign key. -/
def ForeignKeyRow.ofJson? (value : Json) : Option ForeignKeyRow := do
  let [id, column, target, targetColumn, onUpdate, onDelete] ← value.items? | none
  return {
    id := ← id.int?
    column := ← column.string?
    target := ← target.string?
    targetColumn := ← Json.nullable? Json.string? targetColumn
    onUpdate := ← onUpdate.string?
    onDelete := ← onDelete.string? }

/-- The rows about a table. -/
def Rows.ofJson? (value : Json) : Option Rows := do
  return {
    ddl := ← textUnder? "sql" value
    columns := ← rowsUnder? ColumnRow.ofJson? "columns" value
    indices := ← rowsUnder? IndexRow.ofJson? "indices" value
    foreignKeys := ← rowsUnder? ForeignKeyRow.ofJson? "foreign_keys" value }

end Sqlite

/-- The table that no rows describe. -/
def emptyTable (d : Dialect) (name : QualifiedName) : Table :=
  match d with
  | .postgres => Postgres.table name {}
  | .mysql => MySql.table name {}
  | .sqlite => Sqlite.table name {}

/-- The name of a table and the table that its rows describe under a name. -/
def describe? (d : Dialect) (value : Json) : Option (QualifiedName × (QualifiedName → Table)) := do
  let schema := (← textUnder? "schema" value).getD ""
  let name := (← textUnder? "name" value).getD ""
  let table : QualifiedName → Table ← match d with
    | .postgres => (Postgres.Rows.ofJson? value).map fun rows name => Postgres.table name rows
    | .mysql => (MySql.Rows.ofJson? value).map fun rows name => MySql.table name rows
    | .sqlite => (Sqlite.Rows.ofJson? value).map fun rows name => Sqlite.table name rows
  return (⟨schema, name⟩, table)

end Reported

/-- The database with that report. A table that is not listed has no rows. -/
def Server.ofJson? (d : Dialect) (value : Json) : Option Server := do
  let tables ← Reported.rowsUnder? (Reported.describe? d) "tables" value
  return {
    dialect := d
    schema := ← Reported.textUnder? "default_schema" value
    listed := tables.map Prod.fst
    describe := fun name => ((tables.lookup name).getD (Reported.emptyTable d)) name }

end AdditiveSchema
