import AdditiveSchema.Declared.Table
import AdditiveSchema.Dialect.Generate
import AdditiveSchema.View

/-!
# Declared schemas

The tables that a list of definitions declares for one dialect. `build` reads all definitions and
either gives the schema or reports every issue that stands in its way.
-/

namespace AdditiveSchema

/-- The tables that are declared for a dialect. -/
structure DeclaredSchema where
  dialect : Dialect
  /-- The tables, in the order of their definitions. -/
  tables : List Table := []
  /-- The names of the tables that the dialect does not have. -/
  skipped : List QualifiedName := []
  warnings : List Warning := []
  deriving DecidableEq, Repr

namespace DeclaredSchema

/-- The schema with one more table, whose keys are folded. -/
def addTable (s : DeclaredSchema) (t : Table) : DeclaredSchema :=
  { s with tables := s.tables ++ [t.foldKeys] }

/-- Adds the table of one definition, unless there is one of that name. -/
def addDefinition (d : Dialect) (policy : ModifierPolicy) (tables : List Table)
    (declared : TableDef) : Checked (List Table) := do
  match ← Declared.keepSound policy (Declared.readTable d declared) with
  | none => return tables
  | some t =>
    if tables.any (·.qualifiedName == t.qualifiedName) then
      Checked.report (.duplicateTable t.qualifiedName.toString)
      return tables
    else return tables ++ [t]

/-- The tables of the definitions, with their references filled in. -/
def readTables (d : Dialect) (policy : ModifierPolicy) (definitions : List TableDef) :
    Checked (List Table) := do
  let tables ← definitions.foldlM (addDefinition d policy) []
  Declared.resolveReferences tables

/-- The name of the table that a skipped definition stands for. -/
def skippedName (d : Dialect) (declared : TableDef) : QualifiedName :=
  ⟨declared.schemaIn d, declared.name⟩

/-- The schema that the definitions declare for the dialect, or all issues in its way. -/
def build (d : Dialect) (policy : ModifierPolicy) (definitions : List TableDef) :
    Except (List Issue) DeclaredSchema :=
  let (skipped, kept) := definitions.partition (·.isSkippedIn d)
  let read := readTables d policy kept
  match read.issues.filter (Issue.isFatal policy) with
  | [] => .ok {
      dialect := d
      tables := read.value
      skipped := skipped.map (skippedName d)
      warnings := read.issues.filterMap Issue.warning? }
  | issues => .error issues

/-- The declared table of that name. -/
def table? (s : DeclaredSchema) (name : QualifiedName) : Option Table :=
  s.tables.find? (·.qualifiedName == name)

/-- The declared table of that name, which must be there. -/
def require (s : DeclaredSchema) (name : QualifiedName) : Except ReadError Table :=
  match s.table? name with
  | some t => .ok t
  | none => .error (.missing name)

/-- The names of the tables, in order. -/
def names (s : DeclaredSchema) : List QualifiedName :=
  (s.tables.map Table.qualifiedName).mergeSort fun a b => (compare a b).isLE

/-- What a comparison reads of the schema. Names are taken as they are. -/
def view (s : DeclaredSchema) : View :=
  .ofLookup "" s.names s.require

/-- The statements for a declared table. -/
def createTable (s : DeclaredSchema) (name : QualifiedName) :
    Except GenerateError (List Statement) :=
  match s.table? name with
  | some t => s.dialect.createTable t
  | none => .error (.notDeclared name.toString)

/-- The statement for a declared column. -/
def createColumn (s : DeclaredSchema) (table : QualifiedName) (column : String) :
    Except GenerateError Statement :=
  match (s.table? table).bind (·.column? column) with
  | some c => s.dialect.createColumn table c
  | none => .error (.notDeclared (table.toString ++ "." ++ column))

/-- The statement for a declared index, in the first table that has one of that name. -/
def createIndex (s : DeclaredSchema) (name : QualifiedName) : Except GenerateError Statement :=
  match s.tables.findSome? fun t => (t.indicesByName.lookup name).map fun i => (t, i) with
  | some (t, i) => s.dialect.createIndex t.qualifiedName i
  | none => .error (.notDeclared name.toString)

end DeclaredSchema

end AdditiveSchema
