import AdditiveSchema.Reported.Basic

/-!
# Tables of MySQL

The rows that the information schema of MySQL holds about a table, and the table they describe.
What a column does beside holding values stands in one text of words, in any case. A unique
constraint also has an index, which is no index of its own.
-/

namespace AdditiveSchema.Reported.MySql

/-- What is reported about a column. -/
structure ColumnRow where
  name : String
  columnType : String
  /-- The column may be null: `YES` or `NO`. -/
  nullable : String
  default : Option String
  /-- Everything else the column does, in words. -/
  extra : String
  /-- The expression of a generated column. -/
  generation : Option String
  deriving DecidableEq, Repr

/-- What is reported about a constraint. -/
structure ConstraintRow where
  name : String
  kind : String
  /-- The names of the columns, with commas between them. -/
  columns : Option String
  check : Option String
  deriving DecidableEq, Repr

/-- What is reported about one column of a foreign key. -/
structure ForeignKeyRow where
  /-- The name of the foreign key. -/
  name : String
  column : String
  target : QualifiedName
  targetColumn : String
  /-- The two actions in words. -/
  onUpdate : String
  onDelete : String
  deriving DecidableEq, Repr

/-- What is reported about an index. -/
structure IndexRow where
  name : String
  /-- Zero for an index that holds every value once. -/
  nonUnique : Int
  method : String
  /-- The names of the columns, with commas between them. An expression has no name. -/
  keys : Option String
  deriving DecidableEq, Repr

/-- All rows about a table. -/
structure Rows where
  columns : List ColumnRow := []
  constraints : List ConstraintRow := []
  foreignKeys : List ForeignKeyRow := []
  indices : List IndexRow := []
  deriving DecidableEq, Repr, Inhabited

/-- The column of a row. -/
def ColumnRow.column (row : ColumnRow) : Column :=
  let does (words : String) : Bool := Text.holds words.toList (Text.asciiUpper row.extra).toList
  let column : Column :=
    { name := row.name
      columnType := row.columnType
      notNull := Text.asciiUpper row.nullable == "NO"
      autoincrement := if does "AUTO_INCREMENT" then .autoIncrement else .none
      onUpdateCurrentTimestamp := does "ON UPDATE CURRENT_TIMESTAMP" }
  if does "GENERATED" && !does "DEFAULT_GENERATED" then
    { column with generated := some { expr := row.generation.getD "", stored := does "STORED" } }
  else { column with default := row.default }

/-- The constraint of a row. Every primary key has the same name here, so it gets another one. -/
def ConstraintRow.constraint (table : String) (row : ConstraintRow) : TableConstraint :=
  let columns := Text.commaList (row.columns.getD "")
  match row.kind with
  | "PRIMARY KEY" => .primaryKey (primaryKeyName table) columns
  | "UNIQUE" => .unique row.name columns
  | _ => .check row.name (row.check.getD "")

/-- The foreign key of a row. -/
def ForeignKeyRow.foreignKey (row : ForeignKeyRow) : ForeignKey where
  table := row.target
  column := row.targetColumn
  onUpdate := actionOfRule row.onUpdate
  onDelete := actionOfRule row.onDelete

/-- The index with one more key. -/
def addKey (i : Index) (key : String) : Index :=
  if key.isEmpty then i.addExpr unknownExpr else i.addColumn key

/-- The index of a row. -/
def IndexRow.index (schema : String) (row : IndexRow) : Index :=
  (Text.split ',' (row.keys.getD "")).foldl addKey
    { schema, name := row.name, indexType := indexTypeOf row.method, unique := row.nonUnique == 0 }

/-- The table that the rows describe. -/
def table (name : QualifiedName) (rows : Rows) : Table :=
  let constraints := rows.constraints.map (·.constraint name.name)
  let uniqueNames := (constraints.filter (·.kind == .unique)).map (·.name)
  let bare : Table :=
    { schema := name.schema
      name := name.name
      columns := rows.columns.map ColumnRow.column
      constraints
      indices := (rows.indices.filter (!uniqueNames.contains ·.name)).map (·.index name.schema) }
  (loneRows (·.name) rows.foreignKeys).foldl
    (fun t row => refer t row.column row.foreignKey) bare

end AdditiveSchema.Reported.MySql
