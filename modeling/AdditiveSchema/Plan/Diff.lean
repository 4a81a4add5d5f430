import AdditiveSchema.Dialect.TypeName
import AdditiveSchema.Plan.Action
import AdditiveSchema.View

/-!
# Differences of a table

What an existing table lacks of its declaration, by name, and where an existing column differs
from its declaration. Only what is missing leads to an action.
-/

namespace AdditiveSchema.Diff

/-- What a view tells about one table. -/
structure Existing where
  columns : List Column
  constraints : List TableConstraint
  indices : List (QualifiedName × Index)

/-- Reads what the view tells about a table. -/
def Existing.read (v : View) (name : QualifiedName) : Except ReadError Existing := do
  let columns ← v.columns name
  let constraints ← v.constraints name
  let indices ← v.indices name
  return { columns, constraints, indices }

namespace Existing

/-- The column of that name. -/
def column? (e : Existing) (name : String) : Option Column :=
  e.columns.find? (·.name == name)

/-- There is a constraint of that name. -/
def hasConstraint (e : Existing) (name : String) : Bool :=
  e.constraints.any (·.name == name)

/-- There is an index of that name in any schema. -/
def hasIndexNamed (e : Existing) (name : String) : Bool :=
  e.indices.any (·.1.name == name)

/-- There is an index of that name and schema. -/
def hasIndex (e : Existing) (name : QualifiedName) : Bool :=
  e.indices.any (·.1 == name)

/-- The table has a primary key, as a flag or as a constraint. -/
def hasPrimaryKey (e : Existing) : Bool :=
  e.columns.any (·.primaryKey) || e.constraints.any (·.kind == .primaryKey)

end Existing

/-! ### Missing items -/

/-- The existing table has the constraint. Primary keys are told apart by no name, since a table
has only one and not every database keeps its name. A unique key may be reported as an index. -/
def satisfies (e : Existing) (c : TableConstraint) : Bool :=
  match c.kind with
  | .primaryKey => e.hasPrimaryKey
  | _ => e.hasConstraint c.name || e.hasIndexNamed c.name

/-- The columns that are missing. -/
def missingColumns (e : Existing) (t : Table) : List Action :=
  (t.columns.filter fun c => (e.column? c.name).isNone).map (.createColumn t.qualifiedName)

/-- The constraints that are missing. -/
def missingConstraints (e : Existing) (t : Table) : List Action :=
  (t.constraints.filter (!satisfies e ·)).map (.createConstraint t.qualifiedName)

/-- The indices that are missing. An index is there if a constraint has its name. -/
def missingIndices (e : Existing) (t : Table) : List Action :=
  (t.indices.filter fun i => !e.hasIndex (i.nameIn t.schema) && !e.hasConstraint i.name).map
    (.createIndex t.qualifiedName)

/-- Everything that is missing of the declared table. -/
def missing (e : Existing) (t : Table) : List Action :=
  missingColumns e t ++ missingConstraints e t ++ missingIndices e t

/-! ### Drift -/

/-- How the type of an existing column differs. The type of a primary key or of a generated
column is not compared, nor is one that the database does not report. -/
def typeDrift (d : Dialect) (declared found : Column) : Option String :=
  if found.columnType.isEmpty || declared.primaryKey || found.generated.isSome then none
  else
    let expected := d.normalType declared.columnType
    let actual := d.normalType found.columnType
    if expected = actual then none
    else some ("type is " ++ actual ++ ", declared " ++ expected)

/-- How the nullability of an existing column differs. That of a primary key is not compared. -/
def nullDrift (declared found : Column) : Option String :=
  if declared.notNull = found.notNull ∨ declared.primaryKey ∨ found.primaryKey then none
  else if declared.notNull then some "column is nullable, declared NOT NULL"
  else some "column is NOT NULL, declared nullable"

/-- The differences of one existing column. -/
def columnDrift (d : Dialect) (table : QualifiedName) (declared found : Column) : List Warning :=
  ((typeDrift d declared found).toList ++ (nullDrift declared found).toList).map
    (.schemaDrift table declared.name)

/-- The differences of all existing columns. -/
def drift (d : Dialect) (e : Existing) (t : Table) : List Warning :=
  t.columns.flatMap fun c =>
    match e.column? c.name with
    | some found => columnDrift d t.qualifiedName c found
    | none => []

end AdditiveSchema.Diff
