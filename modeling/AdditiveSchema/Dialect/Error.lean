import AdditiveSchema.Dialect.Basic

/-!
# What cannot be generated
-/

namespace AdditiveSchema

/-- Why there is no statement for an item. -/
inductive GenerateError where
  /-- The dialect has no syntax for the feature. -/
  | unsupported (dialect : Dialect) (feature context : String)
  /-- The table has no columns. -/
  | emptyTable (table : String)
  /-- The item is not part of the declared schema. -/
  | notDeclared (name : String)
  deriving DecidableEq, Repr

namespace GenerateError

/-- The wording of the error. -/
def message : GenerateError → String
  | .unsupported dialect feature context =>
    dialect.name ++ " does not support " ++ feature ++ " (" ++ context ++ ")"
  | .emptyTable table => "table " ++ table ++ " has no columns"
  | .notDeclared name => name ++ " is not declared"

/-- The dialect is what stands in the way. -/
def isUnsupported : GenerateError → Bool
  | .unsupported .. => true
  | _ => false

end GenerateError

end AdditiveSchema
