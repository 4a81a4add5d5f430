import AdditiveSchema.Declared.Checked
import AdditiveSchema.Table

/-!
# References

A reference is written as `table`, `table.column` or `schema.table.column`. It is read without
knowledge of the other tables; `resolveReferences` fills in what was left out once all tables are
known.
-/

namespace AdditiveSchema.Declared

open Directive

/-- The table and the column that a target names. A column that is left out is empty. -/
def readTarget (target : String) : Option (QualifiedName × String) :=
  match Text.split '.' target with
  | [table] => if table.isEmpty then none else some (⟨"", table⟩, "")
  | [table, column] => some (⟨"", table⟩, column)
  | [schema, table, column] => some (⟨schema, table⟩, column)
  | _ => none

/-- One modifier of a reference: the action on update or on deletion. -/
def applyReferenceModifier (field : String) (fk : ForeignKey) (m : Modifier) :
    Checked ForeignKey :=
  match m.name with
  | "onupdate" => do
    let action ← Checked.ofWord field m UnknownWord.message (ReferentialAction.read m.value)
    return { fk with onUpdate := action }
  | "ondelete" => do
    let action ← Checked.ofWord field m UnknownWord.message (ReferentialAction.read m.value)
    return { fk with onDelete := action }
  | other => do
    Checked.report (.unknownModifier field other)
    return fk

/-- The foreign key of a `references` modifier. -/
def readReference (field value : String) : Checked (Option ForeignKey) := do
  match ← Checked.ofLexed field value (valueAndModifiers value) with
  | none => return none
  | some (target, modifiers) =>
    match readTarget target with
    | none => do
      Checked.report (.invalidValue field "references" value
        "expected table, table.column or schema.table.column")
      return none
    | some (table, column) => do
      let fk ← modifiers.foldlM (applyReferenceModifier field) { table, column }
      return some fk

/-! ### References between the tables of a schema -/

/-- The declared table that a reference from `origin` means. Without a schema it is the one in
the schema of `origin`, or else the first one of that name. -/
def findTarget (tables : List Table) (origin : Table) (target : QualifiedName) : Option Table :=
  let candidates := tables.filter (·.name == target.name)
  if target.schema.isEmpty then
    (candidates.find? (·.schema == origin.schema)).or candidates.head?
  else candidates.find? (·.schema == target.schema)

/-- Fills in the schema and the column of a foreign key of `field`. A column that is left out is
the primary key of the target. -/
def resolveReference (tables : List Table) (origin : Table) (field : String) (fk : ForeignKey) :
    Checked ForeignKey :=
  let target := findTarget tables origin fk.table
  let fk := match target with
    | some t => { fk with table := fk.table.resolve t.schema }
    | none => fk
  if !fk.column.isEmpty then pure fk
  else match target with
    | none => do
      Checked.report (.unresolvedReference field fk.table.toString "table is not declared")
      return fk
    | some t =>
      match t.singlePrimaryKey with
      | some key => pure { fk with column := key }
      | none => do
        Checked.report (.unresolvedReference field fk.table.toString
          "table has no single-column primary key")
        return fk

/-- Fills in the foreign key of a column. -/
def resolveColumn (tables : List Table) (origin : Table) (c : Column) : Checked Column :=
  match c.references with
  | none => pure c
  | some fk => do
    let fk ← resolveReference tables origin (origin.name ++ "." ++ c.name) fk
    return { c with references := some fk }

/-- Fills in the foreign keys of all tables. -/
def resolveReferences (tables : List Table) : Checked (List Table) :=
  tables.mapM fun t => do
    let columns ← t.columns.mapM (resolveColumn tables t)
    return { t with columns := columns }

end AdditiveSchema.Declared
