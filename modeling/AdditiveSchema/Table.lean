import AdditiveSchema.Column
import AdditiveSchema.Constraint
import AdditiveSchema.Index
import AdditiveSchema.Text.Basic

/-!
# Tables

A table with everything it owns. Both sides of a comparison are tables: the declared ones and the
ones that a database reports. Two operations bring them to one form: `foldKeys` turns keys over a
single column into flags of that column, and `resolve` fills in the schemas that were left out.
-/

namespace AdditiveSchema

/-- A table with its columns, constraints and indices. -/
structure Table where
  schema : String := ""
  name : String := ""
  columns : List Column := []
  constraints : List TableConstraint := []
  indices : List Index := []
  /-- The options of a full text table of SQLite. Where they are given, the table is one. -/
  fts5 : Option String := none
  deriving DecidableEq, Repr, Inhabited

/-- Applies `f` to the first element with the property. -/
def modifyFirst {α : Type} (p : α → Bool) (f : α → α) : List α → List α
  | [] => []
  | a :: as => if p a then f a :: as else a :: modifyFirst p f as

namespace Table

/-- The name of the table with its schema. -/
def qualifiedName (t : Table) : QualifiedName :=
  ⟨t.schema, t.name⟩

/-- The first column of that name. -/
def column? (t : Table) (name : String) : Option Column :=
  t.columns.find? (·.name == name)

/-- Changes the first column of that name. -/
def modifyColumn (t : Table) (name : String) (f : Column → Column) : Table :=
  { t with columns := modifyFirst (·.name == name) f t.columns }

/-- The table with one more column. -/
def addColumn (t : Table) (c : Column) : Table :=
  { t with columns := t.columns ++ [c] }

/-- The table with one more constraint. -/
def addConstraint (t : Table) (c : TableConstraint) : Table :=
  { t with constraints := t.constraints ++ [c] }

/-- The table with one more index. -/
def addIndex (t : Table) (i : Index) : Table :=
  { t with indices := t.indices ++ [i] }

/-- The only column of the primary key: the one that carries the flag, or else the one of the
first primary key constraint. A key over several columns has none. -/
def singlePrimaryKey (t : Table) : Option String :=
  match t.columns.filter (·.primaryKey) with
  | [only] => some only.name
  | _ :: _ => none
  | [] =>
    match t.constraints.find? (·.kind == .primaryKey) with
    | some { columns := [only], .. } => some only
    | _ => none

/-- The name is one that a database makes up for a column declared as unique: no name at all, the
name of the column, or table and column followed by `key`. -/
def isGeneratedKeyName (table column name : String) : Bool :=
  name.isEmpty || name == column || name == table ++ "_" ++ column ++ "_key"

/-- What a key says about its column. -/
def keyFlag (kind : ConstraintKind) : Column → Column :=
  match kind with
  | .primaryKey => Column.asPrimaryKey
  | .unique => fun c => { c with unique := true }
  | .check => id

/-- The constraint is a key over one column of the table, and the flag of that column can stand
for it: a primary key always, a unique key where a database made up its name. -/
def foldsInto? (table : String) (columns : List Column) (constraint : TableConstraint) :
    Option String :=
  match constraint.columns with
  | [column] =>
    let folds := match constraint.kind with
      | .primaryKey => true
      | .unique => isGeneratedKeyName table column constraint.name
      | .check => false
    if folds && columns.any (·.name == column) then some column else none
  | _ => none

/-- Turns keys over a single column into flags of the first column of that name. Databases differ
in which of the two forms they report. A unique key with a name of its own stays, so that it can
be found by its name. -/
def foldKeys (t : Table) : Table :=
  { t with
    columns := t.constraints.foldl (fun columns constraint =>
      match foldsInto? t.name t.columns constraint with
      | some column => modifyFirst (·.name == column) (keyFlag constraint.kind) columns
      | none => columns) t.columns
    constraints := t.constraints.filter fun c => (foldsInto? t.name t.columns c).isNone }

/-- The column with the schema of its foreign key filled in. -/
def resolveReference (schema : String) (c : Column) : Column :=
  { c with references := c.references.map fun fk => { fk with table := fk.table.resolve schema } }

/-- Fills in the schemas that were left out: the one of the table with the default, and those of
its indices and foreign keys with the one of the table. -/
def resolve (defaultSchema : String) (t : Table) : Table :=
  let schema := (t.qualifiedName.resolve defaultSchema).schema
  { t with
    schema := schema
    indices := t.indices.map fun i => { i with schema := (i.nameIn schema).schema }
    columns := t.columns.map (resolveReference schema) }

end Table

end AdditiveSchema
