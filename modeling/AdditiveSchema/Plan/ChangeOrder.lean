import AdditiveSchema.Plan.Action
import AdditiveSchema.Plan.Dependency

/-!
# Order of changes

The changes of existing tables are carried out columns first, then constraints, then indices. A
new column that references another new column comes after it, unless references between new
columns run in a circle.
-/

namespace AdditiveSchema

/-- The name of a column with that of its table. -/
structure ColumnName where
  table : QualifiedName
  column : String
  deriving DecidableEq, Repr

namespace ColumnName

/-- Columns are ordered by table, then by name. -/
instance : Ord ColumnName where
  compare := compareLex (compareOn table) (compareOn column)

end ColumnName

namespace ChangeOrder

/-- The columns that the changes add, with their names. -/
def newColumns (changes : List Action) : List (ColumnName × Column) :=
  changes.filterMap fun
    | .createColumn table c => some (⟨table, c.name⟩, c)
    | _ => none

/-- The references between new columns. -/
def graph (columns : List (ColumnName × Column)) : DependencyGraph ColumnName :=
  let nodes := columns.foldl (fun g (name, _) => g.addNode name) {}
  columns.foldl (fun g (name, c) =>
    match c.references with
    | some fk => g.addDependency name ⟨fk.table, fk.column⟩
    | none => g) nodes

/-- New columns in the order of their names in the list. Those of one name keep their order. -/
def arrange (names : List ColumnName) (columns : List (ColumnName × Column)) :
    List (ColumnName × Column) :=
  columns.mergeSort fun a b => names.idxOf a.1 ≤ names.idxOf b.1

/-- New columns behind those that they reference. If they cannot be sorted, they stay as they
are. -/
def orderColumns (columns : List (ColumnName × Column)) : List (ColumnName × Column) :=
  match (graph columns).sort with
  | .ok names => arrange names columns
  | .error _ => columns

/-- The change adds a constraint. -/
def isConstraint : Action → Bool
  | .createConstraint .. => true
  | _ => false

/-- The change adds neither a column nor a constraint. -/
def isOther : Action → Bool
  | .createColumn .. => false
  | .createConstraint .. => false
  | _ => true

/-- The changes in the order in which they are carried out. -/
def order (changes : List Action) : List Action :=
  (orderColumns (newColumns changes)).map (fun (name, c) => .createColumn name.table c) ++
    changes.filter isConstraint ++ changes.filter isOther

end ChangeOrder

end AdditiveSchema
