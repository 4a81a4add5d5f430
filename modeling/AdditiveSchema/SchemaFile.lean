import AdditiveSchema.Declaration
import AdditiveSchema.Json.Parser
import AdditiveSchema.Json.Record

/-!
# Schema files

A schema file is JSON: an array of table definitions, or an object with such an array under
`tables`. Text that is no JSON and JSON of another shape are told apart. A wrong shape is found
before anything behind the first value is looked at.
-/

namespace AdditiveSchema

/-- A generating expression. -/
def Generated.ofJson? (value : Json) : Option Generated := do
  let [expr, stored] ← value.fields? ["expr", "stored"] | none
  return {
    expr := ← Json.required? Json.string? expr
    stored := ← Json.orDefault? Json.bool? false stored }

/-- The change of a column. -/
def ColumnOverride.ofJson? (value : Json) : Option ColumnOverride := do
  let [type, default, autoincrement, generated, notNull, onUpdate, ignore] ← value.fields?
    ["type", "default", "autoincrement", "generated", "not_null", "on_update_current_timestamp",
      "ignore"] | none
  return {
    columnType := ← Json.orDefault? (Json.nullable? Json.string?) none type
    default := ← Json.orDefault? (Json.nullable? Json.string?) none default
    autoincrement := ←
      Json.orDefault? (Json.nullable? (Json.word? Autoincrement.ofName?)) none autoincrement
    generated := ← Json.orDefault? (Json.nullable? Generated.ofJson?) none generated
    notNull := ← Json.orDefault? (Json.nullable? Json.bool?) none notNull
    onUpdateCurrentTimestamp := ← Json.orDefault? Json.bool? false onUpdate
    ignore := ← Json.orDefault? Json.bool? false ignore }

/-- A named check. -/
def CheckDef.ofJson? (value : Json) : Option CheckDef := do
  let [name, expr] ← value.fields? ["name", "expr"] | none
  return {
    name := ← Json.required? Json.string? name
    expr := ← Json.required? Json.string? expr }

/-- What one dialect changes of a table. -/
def Customization.ofJson? (value : Json) : Option Customization := do
  let [schema, skip, columns, indices, checks] ← value.fields?
    ["schema", "skip", "columns", "indices", "checks"] | none
  let columns ← Json.orDefault? (Json.entries? some ColumnOverride.ofJson?) [] columns
  return {
    schema := ← Json.orDefault? (Json.nullable? Json.string?) none schema
    skip := ← Json.orDefault? Json.bool? false skip
    columns := Keyed.ofList Prod.fst columns
    indices := ← Json.orDefault? (Json.list? Json.string?) [] indices
    checks := ← Json.orDefault? (Json.list? CheckDef.ofJson?) [] checks }

/-- A declared field. -/
def ColumnDef.ofJson? (value : Json) : Option ColumnDef := do
  let [field, kind, directive] ← value.fields? ["field", "kind", "directive"] | none
  return {
    field := ← Json.required? Json.string? field
    kind := ← Json.required? (Json.word? FieldKind.ofName?) kind
    directive := ← Json.orDefault? Json.string? "" directive }

/-- A declared table. -/
def TableDef.ofJson? (value : Json) : Option TableDef := do
  let [name, schema, directive, columns, dialects] ← value.fields?
    ["name", "schema", "directive", "columns", "dialects"] | none
  let dialects ← Json.orDefault? (Json.entries? Dialect.ofName? Customization.ofJson?) [] dialects
  return {
    name := ← Json.orDefault? Json.string? "" name
    schema := ← Json.orDefault? Json.string? "" schema
    directive := ← Json.orDefault? Json.string? "" directive
    columns := ← Json.orDefault? (Json.list? ColumnDef.ofJson?) [] columns
    dialects := Keyed.ofList Prod.fst dialects }

namespace SchemaFile

/-- Why a text is no schema file. -/
inductive ParseError where
  /-- The text is no JSON. -/
  | notJson (e : Json.SyntaxError)
  /-- The text is JSON of another shape. -/
  | wrongShape
  deriving DecidableEq, Repr

/-- The wording of a `ParseError`. -/
def ParseError.message : ParseError → String
  | .notJson e => "Serialization error: " ++ e.message
  | .wrongShape =>
    "Serialization error: data did not match any variant of untagged enum SchemaFile"

/-- The table definitions of a value: the value itself, or its only member `tables`. -/
def definitions? (value : Json) : Option (List TableDef) :=
  match value with
  | .array _ => Json.list? TableDef.ofJson? value
  | .object members => do
    let tables ← Json.member? members "tables"
    Json.required? (Json.list? TableDef.ofJson?) tables
  | _ => none

/-- The table definitions of a text. -/
def parse (text : String) : Except ParseError (List TableDef) :=
  let syntaxError (fault : Json.Fault) : ParseError := .notJson (.ofFault text.toList fault)
  match Json.readValue text.toList with
  | .error fault => .error (syntaxError fault)
  | .ok (value, rest) =>
    match definitions? value with
    | none => .error .wrongShape
    | some definitions => ((Json.atEnd rest).map fun () => definitions).mapError syntaxError

end SchemaFile

end AdditiveSchema
