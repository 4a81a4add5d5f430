import AdditiveSchema.Declared.Checked
import AdditiveSchema.Table
import AdditiveSchema.Text.Numeral

/-!
# Indices declared on columns

Each `index` modifier of a column is one key of an index. Modifiers with one label share an
index, whatever column they stand on; a modifier without label has an index of its own.
-/

namespace AdditiveSchema.Declared

open Directive

/-- What one `index` modifier of a column says. -/
structure IndexUse where
  /-- The label that joins uses to one index. -/
  label : Option String
  /-- The column that the modifier stands on. -/
  column : String
  /-- The place among the keys of the index. -/
  order : Option Nat := none
  /-- An expression that is the key instead of the column. -/
  expr : Option String := none
  unique : Bool := false
  whereExpr : Option String := none
  indexType : Option IndexType := none
deriving DecidableEq

/-- The label of a key or an index: nothing and a point stand for none. -/
def label? (s : String) : Option String :=
  if s = "" ∨ s = "." then none else some s

/-- One modifier inside of an `index` modifier. -/
def applyIndexModifier (field : String) (u : IndexUse) (m : Modifier) : Checked IndexUse :=
  match m.name with
  | "unique" => pure { u with unique := true }
  | "order" => do
    let order ← Checked.ofWord field m Text.WordError.message (Text.readWord m.value)
    return { u with order := order }
  | "expr" => pure { u with expr := some m.value }
  | "where" => pure { u with whereExpr := some m.value }
  | "type" => do
    let indexType ← Checked.ofWord field m UnknownWord.message (IndexType.read m.value)
    return { u with indexType := indexType.or u.indexType }
  | other => do
    Checked.report (.unknownModifier field other)
    return u

/-- The use that an `index` modifier of a column declares. -/
def readIndexUse (field column value : String) : Checked (Option IndexUse) := do
  match ← Checked.ofLexed field value (valueAndModifiers value) with
  | none => return none
  | some (label, modifiers) =>
    let u ← modifiers.foldlM (applyIndexModifier field) { label := label? label, column }
    return some u

/-- Puts a use into the group with its label, or into a new group. -/
def addUse (groups : List (List IndexUse)) (u : IndexUse) : List (List IndexUse) :=
  let joins (group : List IndexUse) : Bool :=
    u.label.isSome && group.any fun v => v.label == u.label
  if groups.any joins then modifyFirst joins (· ++ [u]) groups else groups ++ [[u]]

/-- The uses of each index, both in the order of the declarations. -/
def groupUses (uses : List IndexUse) : List (List IndexUse) :=
  uses.foldl addUse []

/-- The place of a use among the keys. A use without order comes last. -/
def IndexUse.rank (u : IndexUse) : Nat :=
  u.order.getD Text.maxWord

/-- The uses in the order of the keys. Uses of one rank keep their order. -/
def sortUses (group : List IndexUse) : List IndexUse :=
  group.mergeSort fun u v => u.rank ≤ v.rank

/-- The index with one more key. -/
def addKey (i : Index) (u : IndexUse) : Index :=
  match u.expr with
  | some text => i.addExpr text
  | none => i.addColumn u.column

/-- The index of a group. It is named after its table and the columns that its modifiers stand
on; its condition and method are the last ones given. -/
def assembleIndex (table : String) (group : List IndexUse) : Index :=
  let sorted := sortUses group
  let plain : Index :=
    { name := table ++ "_" ++ "_".intercalate (sorted.map (·.column)) ++ "_idx"
      indexType := ((group.filterMap (·.indexType)).getLast?).getD .btree
      unique := group.any (·.unique) }
  let restricted := match (group.filterMap (·.whereExpr)).getLast? with
    | some condition => plain.restrict condition
    | none => plain
  sorted.foldl addKey restricted

end AdditiveSchema.Declared
