import AdditiveSchema.Directive.Error
import AdditiveSchema.Warning

/-!
# Issues of declarations

Everything that a declaration can have wrong with it. All issues of all declarations are
collected, so that one run shows them all. An unknown modifier is the one issue that a policy may
let pass, as a warning.
-/

namespace AdditiveSchema

/-- Something wrong with a declaration. A field is named by its table and its own name. -/
inductive Issue where
  /-- The braces of a directive are wrong. -/
  | lex (field directive : String) (source : Directive.LexError)
  /-- The modifier has no meaning here. -/
  | unknownModifier (field modifier : String)
  /-- The value of the modifier cannot be read. -/
  | invalidValue (field modifier value reason : String)
  /-- A generated column has a default. -/
  | generatedWithDefault (field : String)
  /-- The value of an expression has no type. -/
  | missingType (field : String)
  /-- The column that a reference means cannot be found. -/
  | unresolvedReference (field target reason : String)
  /-- Two tables have one name. -/
  | duplicateTable (table : String)
  /-- A key or an index names a column that its table does not have. -/
  | unknownColumn (table column : String)
  deriving DecidableEq, Repr

/-- The wording of an issue. -/
def Issue.message : Issue → String
  | .lex field directive source =>
    field ++ ": invalid directive " ++ Text.quoted directive ++ ": " ++ source.message
  | .unknownModifier field modifier => field ++ ": unknown modifier '" ++ modifier ++ "'"
  | .invalidValue field modifier value reason =>
    field ++ ": invalid value " ++ Text.quoted value ++ " for '" ++ modifier ++ "': " ++ reason
  | .generatedWithDefault field => field ++ ": a generated column cannot have a default"
  | .missingType field => field ++ ": expr fields need an explicit type"
  | .unresolvedReference field target reason =>
    field ++ ": cannot resolve reference to " ++ target ++ ": " ++ reason
  | .duplicateTable table => "table " ++ table ++ " is declared more than once"
  | .unknownColumn table column => table ++ ": unknown column '" ++ column ++ "'"

/-- The wording of all issues of a schema, one to a line. -/
def Issue.messageOfAll (issues : List Issue) : String :=
  "Invalid schema definitions:\n" ++
    "\n".intercalate (issues.map fun issue => "  - " ++ issue.message)

/-- What becomes of unknown modifiers. -/
inductive ModifierPolicy where
  /-- They are warned about. -/
  | warn
  /-- They are refused. -/
  | deny
  deriving DecidableEq, Repr, Inhabited

/-- The issue stands in the way of the schema. -/
def Issue.isFatal (policy : ModifierPolicy) : Issue → Bool
  | .unknownModifier .. => policy == .deny
  | _ => true

/-- The warning that stands for an issue, if there is one. -/
def Issue.warning? : Issue → Option Warning
  | .unknownModifier field modifier => some (.unknownModifier field modifier)
  | _ => none

end AdditiveSchema
