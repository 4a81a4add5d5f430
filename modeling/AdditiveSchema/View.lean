import AdditiveSchema.Keyed
import AdditiveSchema.Table

/-!
# Views

What a comparison reads of a schema: the names of its tables, and for each table its columns,
constraints and indices by name. A catalog and a declared schema both have a view.
-/

namespace AdditiveSchema

/-- A table whose properties could not be read. -/
structure ReadError where
  /-- The table as it is shown. -/
  table : String
  cause : String
  deriving DecidableEq, Repr

namespace ReadError

/-- The wording of the error. -/
def message (e : ReadError) : String :=
  "failed to introspect table " ++ e.table ++ ": " ++ e.cause

/-- The error of a table that is not there. -/
def missing (name : QualifiedName) : ReadError :=
  ⟨name.toString, "table does not exist"⟩

end ReadError

namespace Table

/-- The columns in the order of their names, the last of each name. -/
def columnsByName (t : Table) : List Column :=
  Keyed.ofList (·.name) t.columns

/-- The constraints in the order of their names, the last of each name. -/
def constraintsByName (t : Table) : List TableConstraint :=
  Keyed.ofList (·.name) t.constraints

/-- The indices with their names in the order of these, the last of each name. An index without
schema lives in the schema of its table. -/
def indicesByName (t : Table) : List (QualifiedName × Index) :=
  Keyed.ofList Prod.fst (t.indices.map fun i => (i.nameIn t.schema, i))

end Table

/-- A readable schema. -/
structure View where
  /-- The schema that stands for an empty one. -/
  defaultSchema : String
  /-- The names of all tables. -/
  tableNames : List QualifiedName
  /-- The columns of a table, by name. -/
  columns : QualifiedName → Except ReadError (List Column)
  /-- The constraints of a table, by name. -/
  constraints : QualifiedName → Except ReadError (List TableConstraint)
  /-- The indices of a table, by name. -/
  indices : QualifiedName → Except ReadError (List (QualifiedName × Index))

namespace View

/-- The view of tables that are found by a function. -/
def ofLookup (defaultSchema : String) (names : List QualifiedName)
    (find : QualifiedName → Except ReadError Table) : View where
  defaultSchema := defaultSchema
  tableNames := names
  columns name := (find name).map Table.columnsByName
  constraints name := (find name).map Table.constraintsByName
  indices name := (find name).map Table.indicesByName

/-- The table is one of the view. -/
def hasTable (v : View) (name : QualifiedName) : Bool :=
  v.tableNames.contains (name.resolve v.defaultSchema)

/-- The names of the tables with their schemas filled in. -/
def resolvedNames (v : View) : List QualifiedName :=
  v.tableNames.map (QualifiedName.resolve v.defaultSchema)

end View

end AdditiveSchema
