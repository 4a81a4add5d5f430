import AdditiveSchema.Catalog
import AdditiveSchema.Dialect.Basic

/-!
# Databases that answer questions

What a database reports when it is asked for its tables. It may fail to answer any of the
questions; the first failure ends the reading. `snapshot` reads all tables into a catalog.
-/

namespace AdditiveSchema

/-- Why a database did not do what it was asked, in its own words. -/
structure Fault where
  message : String
  deriving DecidableEq, Repr

/-- A question to a database. -/
inductive Query where
  /-- The schema that stands for an empty one. -/
  | defaultSchema
  /-- The names of all tables. -/
  | tableNames
  | columns (table : QualifiedName)
  | constraints (table : QualifiedName)
  | foreignKeys (table : QualifiedName)
  | indices (table : QualifiedName)
  deriving DecidableEq, Repr

/-- Why a schema could not be read. -/
inductive AccessError where
  /-- The database did not answer. -/
  | database (fault : Fault)
  /-- The database did not answer a question about one table. -/
  | table (e : ReadError)
  deriving DecidableEq, Repr

/-- The wording of the error. -/
def AccessError.message : AccessError → String
  | .database fault => "Database error: " ++ fault.message
  | .table e => e.message

/-- A database that is asked for its schema. -/
structure Server where
  dialect : Dialect
  /-- The default schema of the connection. There may be none. -/
  schema : Option String := none
  /-- The names of the tables, in the order in which they are listed. -/
  listed : List QualifiedName := []
  /-- The table that the rows about a name describe. The schema of the name is given. -/
  describe : QualifiedName → Table
  /-- The questions that are not answered. -/
  fault? : Query → Option Fault := fun _ => none

namespace Server

/-- The database answers the question. -/
def ask (s : Server) (q : Query) : Except AccessError Unit :=
  match s.fault? q with
  | some fault => .error (.database fault)
  | none => .ok ()

/-- The schema that stands for an empty one. SQLite always has the same and is not asked. -/
def defaultSchema (s : Server) : Except AccessError String := do
  match s.dialect with
  | .sqlite => return "main"
  | .postgres =>
    s.ask .defaultSchema
    return s.schema.getD "public"
  | .mysql =>
    s.ask .defaultSchema
    return s.schema.getD ""

/-- The names of all tables. -/
def tableNames (s : Server) : Except AccessError (List QualifiedName) := do
  s.ask .tableNames
  return s.listed

/-- The table of that name. An empty schema is filled in first. A table that does not exist is
described by no rows. -/
def table (s : Server) (name : QualifiedName) : Except AccessError Table := do
  let schema ← if name.isQualified then pure name.schema else s.defaultSchema
  let name := { name with schema }
  s.ask (.columns name)
  s.ask (.constraints name)
  s.ask (.foreignKeys name)
  s.ask (.indices name)
  return s.describe name

/-- The table of that name. An error names it as it was asked for. -/
def readTable (s : Server) (name : QualifiedName) : Except AccessError Table :=
  (s.table name).mapError fun cause => .table ⟨name.toString, cause.message⟩

/-- All tables of the database. -/
def snapshot (s : Server) : Except AccessError Catalog := do
  let schema ← s.defaultSchema
  let names ← s.tableNames
  let tables ← names.mapM s.readTable
  return Catalog.ofTables schema tables

end Server

end AdditiveSchema
