import AdditiveSchema.Reported.Basic
import AdditiveSchema.Reported.Ddl

/-!
# Tables of SQLite

The rows that SQLite reports about a table, and the table they describe. The names of constraints
and the conditions of indices are not among them; they are found in the texts of the definitions.
-/

namespace AdditiveSchema.Reported.Sqlite

/-- What is reported about a column. -/
structure ColumnRow where
  name : String
  columnType : Option String
  notNull : Int
  default : Option String
  /-- The position in the primary key, from one; zero for a column outside of it. -/
  keyPosition : Int
  /-- One for a hidden column of a virtual table; two and three for a generated column whose values
  are computed and stored. -/
  hidden : Int
  deriving DecidableEq, Repr

/-- What is reported about an index, with the text of its definition. -/
structure IndexRow where
  name : String
  unique : Int
  /-- What made the index: a primary key, a unique constraint or a statement. -/
  origin : String
  isPartial : Int
  /-- The names of the columns. An expression has none. -/
  keys : List (Option String)
  ddl : Option String
  deriving DecidableEq, Repr

/-- What is reported about one column of a foreign key. -/
structure ForeignKeyRow where
  /-- The number of the foreign key. -/
  id : Int
  column : String
  target : String
  targetColumn : Option String
  /-- The two actions in words. -/
  onUpdate : String
  onDelete : String
  deriving DecidableEq, Repr

/-- All rows about a table, with the text of its definition. -/
structure Rows where
  ddl : Option String := none
  columns : List ColumnRow := []
  indices : List IndexRow := []
  foreignKeys : List ForeignKeyRow := []
  deriving DecidableEq, Repr, Inhabited

/-- The column of a row. -/
def ColumnRow.column (row : ColumnRow) : Column where
  name := row.name
  columnType := row.columnType.getD ""
  notNull := row.notNull != 0
  default := row.default
  generated := if row.hidden ≥ 2 then some { expr := "", stored := row.hidden == 3 } else none

/-- The columns of the primary key, in key order. -/
def keyColumns (rows : List ColumnRow) : List String :=
  ((rows.filter (·.keyPosition > 0)).mergeSort fun a b =>
    (compareLex (compareOn ColumnRow.keyPosition) (compareOn ColumnRow.name) a b).isLE).map (·.name)

/-- The column as the primary key. A primary key of integers is the number of the row. -/
def asRowKey (ddl : String) (c : Column) : Column :=
  let c := c.asPrimaryKey
  if Text.asciiUpper c.columnType == "INTEGER" then
    { c with
      autoincrement := if Ddl.holdsAutoincrement ddl then .rowidAutoincrement else .rowid }
  else c

/-- The table with its primary key: a flag of the only column, or a constraint over several. -/
def addPrimaryKey (ddl : String) (named : List Ddl.NamedConstraint) (key : List String)
    (t : Table) : Table :=
  match key with
  | [] => t
  | [column] => t.modifyColumn column (asRowKey ddl)
  | columns =>
    let name := match named.find? (·.kind == "PRIMARY KEY") with
      | some constraint => constraint.name
      | none => primaryKeyName t.name
    t.addConstraint (.primaryKey name columns)

/-- The unique constraint over the columns. Without a name in the definition it gets one made of
the names of the table and the columns. -/
def uniqueConstraint (table : String) (named : List Ddl.NamedConstraint)
    (columns : List String) : TableConstraint :=
  let name :=
    match named.find? fun c => c.kind == "UNIQUE" && Ddl.sameColumns c.body columns with
    | some constraint => constraint.name
    | none => table ++ "_" ++ "_".intercalate columns ++ "_key"
  .unique name columns

/-- The condition of an index in the text of its definition. -/
def conditionOf (ddl : Option String) : String :=
  match Ddl.condition? (ddl.getD "").toList with
  | some condition => String.ofList (Text.trim condition)
  | none => ""

/-- The index with one more key. -/
def addKey (i : Index) : Option String → Index
  | some column => i.addColumn column
  | none => i.addExpr unknownExpr

/-- The index of a row. -/
def IndexRow.index (schema : String) (row : IndexRow) : Index :=
  let index := row.keys.foldl addKey { schema, name := row.name, unique := row.unique != 0 }
  if row.isPartial != 0 then index.restrict (conditionOf row.ddl) else index

/-- The table with what made an index: the unique constraint or the index itself. The index of a
primary key says nothing new. -/
def addIndexRow (named : List Ddl.NamedConstraint) (t : Table) (row : IndexRow) : Table :=
  match row.origin with
  | "pk" => t
  | "u" => t.addConstraint (uniqueConstraint t.name named (row.keys.filterMap id))
  | _ => t.addIndex (row.index t.schema)

/-- The table with the named checks of its definition. -/
def addChecks (named : List Ddl.NamedConstraint) (t : Table) : Table :=
  ((named.filter (·.kind == "CHECK")).map fun c => TableConstraint.check c.name c.body).foldl
    Table.addConstraint t

/-- The foreign key of a row. Its target lives in the schema of the table. -/
def ForeignKeyRow.foreignKey (schema : String) (row : ForeignKeyRow) : ForeignKey where
  table := ⟨schema, row.target⟩
  column := row.targetColumn.getD ""
  onUpdate := actionOfRule row.onUpdate
  onDelete := actionOfRule row.onDelete

/-- The definition is the one of a virtual table. -/
def isVirtual (ddl : String) : Bool :=
  "CREATE VIRTUAL TABLE".toList.isPrefixOf
    (Text.asciiUpper (String.ofList (Text.trimStart ddl.toList))).toList

/-- The table that the rows describe. -/
def table (name : QualifiedName) (rows : Rows) : Table :=
  let ddl := rows.ddl.getD ""
  let named := Ddl.namedConstraints ddl.toList
  let shown := rows.columns.filter (·.hidden != 1)
  let bare : Table :=
    { schema := name.schema
      name := name.name
      columns := shown.map ColumnRow.column
      fts5 := if isVirtual ddl then some "" else none }
  let keyed := addPrimaryKey ddl named (keyColumns shown) bare
  let checked := addChecks named (rows.indices.foldl (addIndexRow named) keyed)
  (loneRows (·.id) rows.foreignKeys).foldl
    (fun t row => refer t row.column (row.foreignKey name.schema)) checked

end AdditiveSchema.Reported.Sqlite
