import AdditiveSchema.Declaration
import AdditiveSchema.Declared.IndexGroup
import AdditiveSchema.Declared.Reference

/-!
# Declared columns

The directive of a field is applied to a column modifier by modifier, then come the changes of
the dialect, and last the column is completed or left out.
-/

namespace AdditiveSchema.Declared

open Directive

/-- A column while its directive is read. -/
structure ColumnDraft where
  column : Column
  /-- The values of the `index` modifiers. -/
  indexed : List String := []
  /-- The expressions of the `check` modifiers. -/
  checks : List String := []

/-- What a declared field adds to its table. -/
structure ColumnParts where
  /-- The column, unless it is left out. -/
  column : Option Column := none
  uses : List IndexUse := []
  checks : List TableConstraint := []

/-- The name that a directive gives, by its last `name` modifier. -/
def nameOr (declared : String) (modifiers : List Modifier) : String :=
  match modifiers.reverse.find? (·.name == "name") with
  | some m => m.value
  | none => declared

/-- One modifier inside of a `generated` modifier: whether the values are stored. -/
def applyGeneratedModifier (field : String) (stored : Bool) (m : Modifier) : Checked Bool :=
  match m.name with
  | "stored" => pure true
  | "virtual" => pure false
  | other => do
    Checked.report (.unknownModifier field other)
    return stored

/-- The expression of a `generated` modifier. -/
def readGenerated (field value : String) : Checked (Option Generated) := do
  match ← Checked.ofLexed field value (valueAndModifiers value) with
  | none => return none
  | some (expr, modifiers) =>
    let stored ← modifiers.foldlM (applyGeneratedModifier field) false
    return some { expr, stored }

/-- The mode of an `autoincrement` modifier. A flag means the mode of the dialect. -/
def readAutoincrement (d : Dialect) (field : String) (m : Modifier) :
    Checked (Option Autoincrement) :=
  if m.isFlag then pure (some d.nativeAutoincrement)
  else Checked.ofWord field m UnknownWord.message (Autoincrement.read m.value)

/-- One modifier of a field. -/
def applyColumnModifier (d : Dialect) (field : String) (draft : ColumnDraft) (m : Modifier) :
    Checked ColumnDraft :=
  let c := draft.column
  match m.name with
  | "name" => pure draft
  | "type" => pure { draft with column := { c with columnType := m.value } }
  | "notnull" => pure { draft with column := { c with notNull := true } }
  | "primarykey" => pure { draft with column := c.asPrimaryKey }
  | "unique" => pure { draft with column := { c with unique := true } }
  | "index" => pure { draft with indexed := draft.indexed ++ [m.value] }
  | "references" => do
    let fk ← readReference field m.value
    return { draft with column := { c with references := fk.or c.references } }
  | "default" => pure { draft with column := { c with default := some m.value } }
  | "generated" => do
    let generated ← readGenerated field m.value
    return { draft with column := { c with generated := generated.or c.generated } }
  | "collate" => pure { draft with column := { c with collation := some m.value } }
  | "autoincrement" => do
    let mode ← readAutoincrement d field m
    return { draft with column := { c with autoincrement := mode.getD c.autoincrement } }
  | "check" => pure { draft with checks := draft.checks ++ [m.value] }
  | other => do
    Checked.report (.unknownModifier field other)
    return draft

/-- The column with its default type where none is given, unless something is wrong with it. -/
def completeColumn (d : Dialect) (field : String) (kind : FieldKind) (c : Column) :
    Checked (Option Column) :=
  if c.columnType.isEmpty && kind == .expr then do
    Checked.report (.missingType field)
    return none
  else if c.generated.isSome && c.default.isSome then do
    Checked.report (.generatedWithDefault field)
    return none
  else
    pure (some (if c.columnType.isEmpty then { c with columnType := d.defaultType kind } else c))

/-- The parts of a column that is not left out. -/
def readParts (d : Dialect) (table field : String) (kind : FieldKind) (draft : ColumnDraft) :
    Checked ColumnParts := do
  let c := draft.column
  let uses ← draft.indexed.mapM (readIndexUse field c.name)
  let column ← completeColumn d field kind c
  return {
    column := column
    uses := uses.filterMap id
    checks := draft.checks.map (.check (table ++ "_" ++ c.name ++ "_check")) }

/-- What a field adds to the table. A field whose directive cannot be read adds nothing, nor does
one that the dialect or its own type leaves out. -/
def readColumn (d : Dialect) (table : String) (custom : Option Customization)
    (declared : ColumnDef) : Checked ColumnParts := do
  let field := table ++ "." ++ declared.field
  match ← Checked.ofLexed field declared.directive (modifiers declared.directive) with
  | none => return {}
  | some modifiers =>
    let name := nameOr declared.field modifiers
    let override := custom.bind (·.column? name declared.field)
    if override.any (·.dropsColumn) then return {}
    let start : Column := { name, kind := some declared.kind }
    let draft ← modifiers.foldlM (applyColumnModifier d field) { column := start }
    let column := match override with
      | some o => o.apply draft.column
      | none => draft.column
    if column.isIgnored then return {}
    readParts d table field declared.kind { draft with column := column }

end AdditiveSchema.Declared
