import AdditiveSchema.Reported.Basic

/-!
# Tables of PostgreSQL

The rows that the catalog of PostgreSQL holds about a table, and the table they describe. A
generated column and a column that takes its values from a sequence are told by their default; a
unique constraint also has an index, which is no index of its own.
-/

namespace AdditiveSchema.Reported.Postgres

/-- What is reported about a column. -/
structure ColumnRow where
  name : String
  columnType : String
  notNull : Bool
  default : Option String
  /-- The kind of identity column, or empty. -/
  identity : String
  /-- The kind of generated column, or empty. -/
  generated : String
  /-- The collation, where it is not the one of the type. -/
  collation : Option String
  deriving DecidableEq, Repr

/-- What is reported about a constraint. -/
structure ConstraintRow where
  name : String
  /-- The letter of the kind. -/
  kind : String
  check : Option String
  columns : List String
  deriving DecidableEq, Repr

/-- What is reported about a foreign key over one column. -/
structure ForeignKeyRow where
  column : String
  target : QualifiedName
  targetColumn : String
  /-- The letters of the two actions. -/
  onUpdate : String
  onDelete : String
  deriving DecidableEq, Repr

/-- What is reported about an index. -/
structure IndexRow where
  name : String
  unique : Bool
  method : String
  predicate : Option String
  keys : List String
  carried : List String
  deriving DecidableEq, Repr

/-- All rows about a table. -/
structure Rows where
  columns : List ColumnRow := []
  constraints : List ConstraintRow := []
  foreignKeys : List ForeignKeyRow := []
  indices : List IndexRow := []
  deriving DecidableEq, Repr, Inhabited

/-- The default takes the next value of a sequence. -/
def isSequenceDefault (default : String) : Bool :=
  "nextval(".toList.isPrefixOf default.toList

/-- The column of a row. -/
def ColumnRow.column (row : ColumnRow) : Column :=
  let column : Column :=
    { name := row.name
      columnType := row.columnType
      notNull := row.notNull
      collation := row.collation
      autoincrement := if row.identity.isEmpty then .none else .identity }
  if row.generated == "s" then
    { column with generated := some { expr := row.default.getD "", stored := true } }
  else match row.default with
    | none => column
    | some default =>
      if isSequenceDefault default then { column with autoincrement := .serial }
      else { column with default := some default }

/-- The constraint of a row. -/
def ConstraintRow.constraint (row : ConstraintRow) : TableConstraint :=
  match row.kind with
  | "p" => .primaryKey row.name row.columns
  | "u" => .unique row.name row.columns
  | _ => .check row.name (row.check.getD "")

/-- The action that a letter stands for. No action is what happens without one. -/
def actionOfLetter : String → Option ReferentialAction
  | "r" => some .restrict
  | "c" => some .cascade
  | "n" => some .setNull
  | "d" => some .setDefault
  | _ => none

/-- The foreign key of a row. -/
def ForeignKeyRow.foreignKey (row : ForeignKeyRow) : ForeignKey where
  table := row.target
  column := row.targetColumn
  onUpdate := actionOfLetter row.onUpdate
  onDelete := actionOfLetter row.onDelete

/-- The key of an index is the name of a column: in double quotes without another one inside, or
a bare word of lower-case letters, digits and underscores. All other keys are expressions. -/
def isIdentifier (key : String) : Bool :=
  match (Text.dropLead? ['"'] key.toList).bind (Text.dropTail? ['"']) with
  | some quoted => !quoted.contains '"'
  | none => !key.isEmpty && key.toList.all fun c => c.isLower || c.isDigit || c == '_'

/-- The index with one more key. -/
def addKey (i : Index) (key : String) : Index :=
  if isIdentifier key then i.addColumn (Text.strip (· == '"') key) else i.addExpr key

/-- The index of a row. -/
def IndexRow.index (schema : String) (row : IndexRow) : Index :=
  let index := row.keys.foldl addKey
    { schema, name := row.name, indexType := indexTypeOf row.method, unique := row.unique,
      carried := row.carried }
  match row.predicate with
  | none => index
  | some predicate => index.restrict predicate

/-- The table that the rows describe. -/
def table (name : QualifiedName) (rows : Rows) : Table :=
  let constraints := rows.constraints.map ConstraintRow.constraint
  let keyNames := (constraints.filter (·.kind != .check)).map (·.name)
  let bare : Table :=
    { schema := name.schema
      name := name.name
      columns := rows.columns.map ColumnRow.column
      constraints
      indices := (rows.indices.filter (!keyNames.contains ·.name)).map (·.index name.schema) }
  rows.foreignKeys.foldl (fun t row => refer t row.column row.foreignKey) bare

end AdditiveSchema.Reported.Postgres
