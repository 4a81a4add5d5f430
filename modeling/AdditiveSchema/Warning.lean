import AdditiveSchema.Column

/-!
# Warnings

Conditions that are reported beside a successful result.
-/

namespace AdditiveSchema

/-- A condition that does not stand in the way. -/
inductive Warning where
  /-- A directive uses a modifier that has no meaning. -/
  | unknownModifier (field modifier : String)
  /-- An existing column differs from its declaration. It is left as it is. -/
  | schemaDrift (table : QualifiedName) (column detail : String)
  /-- A foreign key is created after its table, to break a cycle. -/
  | deferredForeignKey (table : QualifiedName) (column : String) (references : ForeignKey)
  /-- An item that the dialect cannot create is left out. -/
  | unsupported (table : QualifiedName) (detail : String)
  deriving DecidableEq, Repr

/-- The wording of a warning. -/
def Warning.message : Warning → String
  | .unknownModifier field modifier => field ++ ": unknown modifier '" ++ modifier ++ "'"
  | .schemaDrift table column detail =>
    table.toString ++ "." ++ column ++ ": schema drift: " ++ detail
  | .deferredForeignKey table column references =>
    table.toString ++ "." ++ column ++ ": foreign key to " ++ references.table.toString ++ "." ++
      references.column ++ " deferred until after table creation"
  | .unsupported table detail => table.toString ++ ": skipped: " ++ detail

end AdditiveSchema
