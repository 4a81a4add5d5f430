import AdditiveSchema.Dialect.Statement

/-!
# SQLite

SQLite makes a row number column of the exact type `INTEGER`, writes the schema on the name of an
index instead of its table, has full text tables, and can add only little to an existing table.
-/

namespace AdditiveSchema.Sqlite

/-- The type of a column with its mode of generating values, which only a primary key may have. -/
def dataType (context : String) (c : Column) : Except GenerateError String :=
  match c.autoincrement with
  | .none => .ok c.columnType
  | mode =>
    if (mode = .rowid ∨ mode = .rowidAutoincrement) ∧ c.primaryKey then .ok "INTEGER"
    else .error (.unsupported .sqlite (mode.name ++ " autoincrement") context)

/-- The word that says whether the values of a generated column are stored. -/
def storage (g : Generated) : String :=
  if g.stored then "STORED" else "VIRTUAL"

/-- The definition of a column. -/
def columnDefinition (table : QualifiedName) (c : Column) : Except GenerateError String := do
  let type ← dataType (table.toString ++ "." ++ c.name) c
  return Dialect.sqlite.quote c.name ++ " " ++ type ++
    Dialect.clause c.primaryKey " PRIMARY KEY" ++
    Dialect.clause (c.primaryKey && c.autoincrement == .rowidAutoincrement) " AUTOINCREMENT" ++
    Dialect.clause c.notNull " NOT NULL" ++
    Dialect.clause (c.unique && !c.primaryKey) " UNIQUE" ++
    Dialect.clauseOf (" COLLATE " ++ ·) c.collation ++
    Dialect.clauseOf (fun e => " DEFAULT " ++ Dialect.sqlite.renderDefault e) c.default ++
    Dialect.clauseOf (fun g => " GENERATED ALWAYS AS (" ++ g.expr ++ ") " ++ storage g)
      c.generated ++
    Dialect.clauseOf (fun fk => " " ++ Dialect.sqlite.referencesClause fk) c.references

/-- The start of a statement for an index: the schema stands on its name and not on the table. -/
def indexHead (unique : Bool) (table : QualifiedName) (name : String) : String :=
  "CREATE " ++ Dialect.clause unique "UNIQUE " ++ "INDEX " ++
    Dialect.sqlite.quoteName ⟨table.schema, name⟩ ++ " ON " ++ Dialect.sqlite.quote table.name

/-- The statement for an index. -/
def createIndex (table : QualifiedName) (i : Index) : Except GenerateError Statement := do
  if i.indexType ≠ .btree then
    throw (.unsupported .sqlite (i.indexType.sql ++ " indices") i.name)
  if !i.carried.isEmpty then throw (.unsupported .sqlite "INCLUDE columns" i.name)
  return { sql := indexHead i.unique table i.name ++ " (" ++ Dialect.sqlite.indexKeys i ++ ")" ++
    Dialect.clauseOf (" WHERE " ++ ·) i.whereExpr }

/-- The statement for a full text table: the names of its columns, then its options. -/
def createFullText (t : Table) (options : String) : Statement :=
  let trimmed := Text.trimmed options
  let arguments := t.columns.map (·.name) ++ if trimmed.isEmpty then [] else [trimmed]
  { sql := "CREATE VIRTUAL TABLE " ++ Dialect.sqlite.quoteName t.qualifiedName ++
      " USING fts5(" ++ ", ".intercalate arguments ++ ")" }

/-- The statements for a table and its indices, or for a full text table. -/
def createTable (t : Table) : Except GenerateError (List Statement) :=
  match t.fts5 with
  | some options => .ok [createFullText t options]
  | none => Standard.createTable .sqlite (columnDefinition t.qualifiedName)
      (createIndex t.qualifiedName) t

/-- The statement for a column of an existing table. Such a column is no key and not stored. -/
def createColumn (table : QualifiedName) (c : Column) : Except GenerateError Statement := do
  let context := table.toString ++ "." ++ c.name
  if c.primaryKey then throw (.unsupported .sqlite "adding a PRIMARY KEY column" context)
  if c.unique then throw (.unsupported .sqlite "adding a UNIQUE column" context)
  if c.generated.any (·.stored) then
    throw (.unsupported .sqlite "adding a STORED generated column" context)
  Standard.createColumn .sqlite (columnDefinition table c) table c

/-- The statement for a constraint of an existing table. Only a unique key can be added, as an
index. -/
def createConstraint (table : QualifiedName) (c : TableConstraint) :
    Except GenerateError Statement :=
  if c.kind = .unique then
    .ok { sql := indexHead true table c.name ++ " (" ++ Dialect.sqlite.quoteList c.columns ++ ")" }
  else
    .error (.unsupported .sqlite ("adding a " ++ c.kind.sql ++ " constraint")
      (table.toString ++ "." ++ c.name))

/-- There is no statement for a foreign key of an existing column. -/
def addForeignKey (table : QualifiedName) (column : String) : Except GenerateError Statement :=
  .error (.unsupported .sqlite "adding a foreign key" (table.toString ++ "." ++ column))

end AdditiveSchema.Sqlite
