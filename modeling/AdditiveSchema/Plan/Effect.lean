import AdditiveSchema.Catalog
import AdditiveSchema.Plan.Action

/-!
# The effect of an action

What a catalog holds after an action was carried out on its database: a created table is
inserted; any other item becomes part of its table, which is inserted again.
-/

namespace AdditiveSchema

/-- Changes the table of that name and inserts it again. Nothing happens if there is none. -/
def Catalog.update (c : Catalog) (name : QualifiedName) (f : Table → Table) : Catalog :=
  match c.table? name with
  | some t => c.insert (f t)
  | none => c

namespace Action

/-- The catalog after the action. -/
def apply (c : Catalog) : Action → Catalog
  | .createTable t => c.insert t
  | .createColumn table column => c.update table (·.addColumn column)
  | .createConstraint table constraint => c.update table (·.addConstraint constraint)
  | .createIndex table index => c.update table (·.addIndex index)
  | .addForeignKey table column fk =>
    c.update table (·.modifyColumn column fun col => { col with references := some fk })

/-- The catalog after all actions, in order. -/
def applyAll (c : Catalog) (actions : List Action) : Catalog :=
  actions.foldl apply c

end Action

end AdditiveSchema
