import AdditiveSchema.Dialect.Default
import AdditiveSchema.Dialect.Error
import AdditiveSchema.Dialect.Identifier
import AdditiveSchema.Table

/-!
# Statements

The parts of which statements are made and the forms that the dialects share. What a dialect
spells in its own way stands in the module of that dialect.
-/

namespace AdditiveSchema

/-- A statement with its bind arguments. Everything is written into the text, so generated
statements have no arguments. -/
structure Statement where
  sql : String
  arguments : List String := []
  deriving DecidableEq, Repr, Inhabited

/-- The name of the constraint behind the foreign key of a column. -/
def foreignKeyName (table column : String) : String :=
  table ++ "_" ++ column ++ "_fkey"

namespace Dialect

/-- The target of a foreign key. SQLite takes no schema there. -/
def quoteTarget : Dialect → QualifiedName → String
  | .sqlite, n => Dialect.sqlite.quote n.name
  | d, n => d.quoteName n

/-- The clause that makes a foreign key, with its actions. -/
def referencesClause (d : Dialect) (fk : ForeignKey) : String :=
  "REFERENCES " ++ d.quoteTarget fk.table ++ " (" ++ d.quote fk.column ++ ")" ++
    (match fk.onUpdate with
      | some action => " ON UPDATE " ++ action.sql
      | none => "") ++
    (match fk.onDelete with
      | some action => " ON DELETE " ++ action.sql
      | none => "")

/-- A foreign key as a constraint of its table. -/
def foreignKeyConstraint (d : Dialect) (table : QualifiedName) (column : String)
    (fk : ForeignKey) : String :=
  "CONSTRAINT " ++ d.quote (foreignKeyName table.name column) ++ " FOREIGN KEY (" ++
    d.quote column ++ ") " ++ d.referencesClause fk

/-- A constraint as it stands inside of a table. A check without expression always holds. -/
def tableConstraint (d : Dialect) (c : TableConstraint) : String :=
  "CONSTRAINT " ++ d.quote c.name ++
    match c.kind with
    | .check => " CHECK (" ++ c.checkExpr.getD "TRUE" ++ ")"
    | kind => " " ++ kind.sql ++ " (" ++ d.quoteList c.columns ++ ")"

/-- One key of an index. -/
def indexKey (d : Dialect) : IndexKey → String
  | .column name => d.quote name
  | .expr text => "(" ++ text ++ ")"

/-- The keys of an index between commas. -/
def indexKeys (d : Dialect) (i : Index) : String :=
  ", ".intercalate (i.keys.map d.indexKey)

/-- The text, or nothing if the condition fails. -/
def clause (condition : Bool) (text : String) : String :=
  if condition then text else ""

/-- The text made of a value, or nothing if there is none. -/
def clauseOf {α : Type} (render : α → String) : Option α → String
  | some a => render a
  | none => ""

end Dialect

/-! ### The forms that the dialects share -/

namespace Standard

variable (d : Dialect)

/-- The statement for an index: its method unless it is the balanced tree, its keys, the columns
it carries and its condition. There is no such form for full text and spatial indices. -/
def createIndex (table : QualifiedName) (i : Index) : Except GenerateError Statement :=
  if i.indexType = .fullText ∨ i.indexType = .spatial then
    .error (.unsupported d (i.indexType.sql ++ " indices") i.name)
  else
    .ok { sql :=
      "CREATE " ++ Dialect.clause i.unique "UNIQUE " ++ "INDEX " ++ d.quote i.name ++
      " ON " ++ d.quoteName table ++
      Dialect.clause (i.indexType != .btree) (" USING " ++ i.indexType.name) ++
      " (" ++ d.indexKeys i ++ ")" ++
      Dialect.clause (!i.carried.isEmpty) (" INCLUDE (" ++ d.quoteList i.carried ++ ")") ++
      Dialect.clauseOf (" WHERE " ++ ·) i.whereExpr }

/-- The lines of a table: its columns, its constraints, and its foreign keys where the dialect
does not write them on the columns. -/
def tableLines (columnDefinition : Column → Except GenerateError String) (t : Table) :
    Except GenerateError (List String) := do
  let columns ← t.columns.mapM columnDefinition
  let keys := if d.inlinesReferences then [] else t.columns.filterMap fun c =>
    c.references.map (d.foreignKeyConstraint t.qualifiedName c.name)
  return columns ++ t.constraints.map d.tableConstraint ++ keys

/-- The statement for a table without its indices. -/
def tableStatement (t : Table) (lines : List String) : Statement :=
  { sql := "CREATE TABLE " ++ d.quoteName t.qualifiedName ++ " (\n" ++
      ",\n".intercalate (lines.map ("    " ++ ·)) ++ "\n)" }

/-- The statements for a table and its indices. A table needs at least one column. -/
def createTable (columnDefinition : Column → Except GenerateError String)
    (createIndex : Index → Except GenerateError Statement) (t : Table) :
    Except GenerateError (List Statement) := do
  if t.columns.isEmpty then throw (.emptyTable t.qualifiedName.toString)
  let lines ← tableLines d columnDefinition t
  let indices ← t.indices.mapM createIndex
  return tableStatement d t lines :: indices

/-- The text in front of what is added to a table. -/
def alterTable (table : QualifiedName) : String :=
  "ALTER TABLE " ++ d.quoteName table ++ " ADD "

/-- The statement for a column of an existing table, with its foreign key as a constraint where
the dialect does not write it on the column. -/
def createColumn (definition : Except GenerateError String) (table : QualifiedName) (c : Column) :
    Except GenerateError Statement := do
  let text ← definition
  let key := if d.inlinesReferences then "" else
    Dialect.clauseOf (fun fk => ", ADD " ++ d.foreignKeyConstraint table c.name fk) c.references
  return { sql := alterTable d table ++ "COLUMN " ++ text ++ key }

/-- The statement for a constraint of an existing table. -/
def createConstraint (table : QualifiedName) (c : TableConstraint) :
    Except GenerateError Statement :=
  .ok { sql := alterTable d table ++ d.tableConstraint c }

/-- The statement for a foreign key of an existing column. -/
def addForeignKey (table : QualifiedName) (column : String) (fk : ForeignKey) :
    Except GenerateError Statement :=
  .ok { sql := alterTable d table ++ d.foreignKeyConstraint table column fk }

end Standard

end AdditiveSchema
