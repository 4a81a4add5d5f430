import AdditiveSchema.Kind

/-!
# Table constraints
-/

namespace AdditiveSchema

/-- A named constraint of a table. -/
structure TableConstraint where
  name : String
  kind : ConstraintKind
  /-- The columns of a key, in key order. A check has none. -/
  columns : List String := []
  /-- The expression of a check. -/
  checkExpr : Option String := none
  deriving DecidableEq, Repr, Inhabited

namespace TableConstraint

/-- A primary key. -/
def primaryKey (name : String) (columns : List String) : TableConstraint :=
  { name, kind := .primaryKey, columns }

/-- A unique key. -/
def unique (name : String) (columns : List String) : TableConstraint :=
  { name, kind := .unique, columns }

/-- A check. -/
def check (name expr : String) : TableConstraint :=
  { name, kind := .check, checkExpr := some expr }

end TableConstraint

end AdditiveSchema
