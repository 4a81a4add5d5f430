import AdditiveSchema.Declared.Column

/-!
# Declared tables

A table takes its columns first, then the modifiers of its own directive, then the additions of
the dialect. A table with an issue that stands in the way is left out of the schema.
-/

namespace AdditiveSchema.Declared

open Directive

/-- The columns are there and belong to the table; if not, that is reported. -/
def checkColumns (t : Table) (columns : List String) (modifier value : String) : Checked Bool :=
  if columns.isEmpty then do
    Checked.report (.invalidValue t.name modifier value "missing cols")
    return false
  else
    let unknown := columns.filter fun name => (t.column? name).isNone
    { value := unknown.isEmpty, issues := unknown.map (.unknownColumn t.name) }

/-- An index while its modifiers are read, and the columns that are its keys. -/
structure IndexDraft where
  index : Index := {}
  columns : List String := []

/-- One modifier inside of an `index` modifier of a table. -/
def applyTableIndexModifier (field : String) (draft : IndexDraft) (m : Modifier) :
    Checked IndexDraft :=
  let i := draft.index
  match m.name with
  | "cols" => pure { draft with columns := Text.commaList m.value }
  | "unique" => pure { draft with index := { i with unique := true } }
  | "type" => do
    let indexType ← Checked.ofWord field m UnknownWord.message (IndexType.read m.value)
    return { draft with index := { i with indexType := indexType.getD i.indexType } }
  | "where" => pure { draft with index := i.restrict m.value }
  | "include" => pure { draft with index := { i with carried := Text.commaList m.value } }
  | other => do
    Checked.report (.unknownModifier field other)
    return draft

/-- Adds the index that an `index` modifier of the table declares. -/
def addTableIndex (t : Table) (value : String) : Checked Table := do
  match ← Checked.ofLexed t.name value (valueAndModifiers value) with
  | none => return t
  | some (label, modifiers) =>
    let draft ← modifiers.foldlM (applyTableIndexModifier t.name) {}
    if ← checkColumns t draft.columns "index" value then
      let name := (label? label).getD (t.name ++ "_" ++ "_".intercalate draft.columns ++ "_idx")
      return t.addIndex (draft.columns.foldl Index.addColumn { draft.index with name := name })
    else return t

/-- One modifier inside of a key of a table: its columns. -/
def applyKeyModifier (field : String) (columns : List String) (m : Modifier) :
    Checked (List String) :=
  match m.name with
  | "cols" => pure (Text.commaList m.value)
  | other => do
    Checked.report (.unknownModifier field other)
    return columns

/-- The kind of key that a table declares with a modifier. -/
inductive KeyKind where
  | primaryKey
  | unique
  deriving DecidableEq

/-- The key of that kind. Without a label it is named after the table, and a unique key after its
columns too. -/
def KeyKind.constraint (kind : KeyKind) (table : String) (label : Option String)
    (columns : List String) : TableConstraint :=
  match kind with
  | .primaryKey => .primaryKey (label.getD (table ++ "_pkey")) columns
  | .unique => .unique (label.getD (table ++ "_" ++ "_".intercalate columns ++ "_key")) columns

/-- Adds the key that a modifier of the table declares. -/
def addTableKey (kind : KeyKind) (t : Table) (m : Modifier) : Checked Table := do
  match ← Checked.ofLexed t.name m.value (valueAndModifiers m.value) with
  | none => return t
  | some (label, modifiers) =>
    let columns ← modifiers.foldlM (applyKeyModifier t.name) []
    if ← checkColumns t columns m.name m.value then
      return t.addConstraint (kind.constraint t.name (label? label) columns)
    else return t

/-- One modifier inside of a check of a table: its expression. -/
def applyCheckModifier (field : String) (expr : String) (m : Modifier) : Checked String :=
  match m.name with
  | "expr" => pure m.value
  | other => do
    Checked.report (.unknownModifier field other)
    return expr

/-- Adds the check that a modifier of the table declares. -/
def addTableCheck (t : Table) (value : String) : Checked Table := do
  match ← Checked.ofLexed t.name value (valueAndModifiers value) with
  | none => return t
  | some (label, modifiers) =>
    let expr ← modifiers.foldlM (applyCheckModifier t.name) ""
    if expr.isEmpty then
      Checked.report (.invalidValue t.name "check" value "missing expr")
      return t
    else return t.addConstraint (.check ((label? label).getD (t.name ++ "_check")) expr)

/-- An option of a full text table as it is written in a statement. -/
def fullTextOption (m : Modifier) : String :=
  if m.isFlag then m.name else m.name ++ "=" ++ m.value

/-- Makes the table a full text table with the options. -/
def setFullText (t : Table) (value : String) : Checked Table := do
  match ← Checked.ofLexed t.name value (modifiers value) with
  | none => return t
  | some options => return { t with fts5 := some (", ".intercalate (options.map fullTextOption)) }

/-- One modifier of a table. Only SQLite has full text tables; the others pass over them. -/
def applyTableModifier (d : Dialect) (t : Table) (m : Modifier) : Checked Table :=
  match m.name with
  | "name" => pure t
  | "index" => addTableIndex t m.value
  | "unique" => addTableKey .unique t m
  | "primarykey" => addTableKey .primaryKey t m
  | "check" => addTableCheck t m.value
  | "fts5" => if d = .sqlite then setFullText t m.value else pure t
  | other => do
    Checked.report (.unknownModifier t.name other)
    return t

/-- The text of an index without an enclosing pair of braces. -/
def bareIndex (directive : String) : String :=
  let text := Text.trim directive.toList
  String.ofList
    (((Text.dropLead? ['{'] text).bind (Text.dropTail? ['}'])).getD text)

/-- Adds the indices and checks that the dialect has. -/
def addCustom (t : Table) (custom : Customization) : Checked Table := do
  let t ← custom.indices.foldlM (fun t directive => addTableIndex t (bareIndex directive)) t
  return custom.checks.foldl (fun t check => t.addConstraint (.check check.name check.expr)) t

/-- The table with its columns and what these declare. -/
def ofParts (schema name : String) (parts : List ColumnParts) : Table where
  schema := schema
  name := name
  columns := parts.filterMap (·.column)
  constraints := parts.flatMap (·.checks)
  indices := (groupUses (parts.flatMap (·.uses))).map (assembleIndex name)

/-- The table of a definition, if its directive can be read and gives it a name. -/
def readTable (d : Dialect) (declared : TableDef) : Checked (Option Table) := do
  match ← Checked.ofLexed declared.name declared.directive (modifiers declared.directive) with
  | none => return none
  | some modifiers =>
    let name := nameOr declared.name modifiers
    if name.isEmpty then
      Checked.report (.invalidValue declared.name "name" "" "table name is empty")
      return none
    else
      let custom := declared.customization? d
      let parts ← declared.columns.mapM (readColumn d name custom)
      let t ← modifiers.foldlM (applyTableModifier d) (ofParts (declared.schemaIn d) name parts)
      let t ← match custom with
        | some custom => addCustom t custom
        | none => pure t
      return some t.foldKeys

/-- The table, unless one of its issues stands in the way. -/
def keepSound (policy : ModifierPolicy) (t : Checked (Option Table)) : Checked (Option Table) :=
  if t.issues.any (Issue.isFatal policy) then { t with value := none } else t

end AdditiveSchema.Declared
