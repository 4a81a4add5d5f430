import AdditiveSchema.Kind
import AdditiveSchema.Name

/-!
# Indices

The keys of an index are columns and expressions in any mix. They are held in two lists of one
length, the names and the expressions; at each position one of the two texts is empty.
-/

namespace AdditiveSchema

/-- One key of an index. -/
inductive IndexKey where
  | column (name : String)
  | expr (text : String)
  deriving DecidableEq, Repr

/-- An index of a table. -/
structure Index where
  schema : String := ""
  name : String := ""
  indexType : IndexType := .btree
  unique : Bool := false
  /-- The index covers only some of the rows. -/
  isPartial : Bool := false
  /-- The condition on the rows that the index covers. -/
  whereExpr : Option String := none
  columns : List String := []
  exprs : List String := []
  /-- Columns that the index carries beside its keys. -/
  carried : List String := []
  deriving DecidableEq, Repr, Inhabited

/-- The text of an expression that a database does not report. -/
def unknownExpr : String := "?"

namespace Index

/-- The index with one more column as its last key. -/
def addColumn (i : Index) (name : String) : Index :=
  { i with columns := i.columns ++ [name], exprs := i.exprs ++ [""] }

/-- The index with one more expression as its last key. -/
def addExpr (i : Index) (text : String) : Index :=
  { i with columns := i.columns ++ [""], exprs := i.exprs ++ [text] }

/-- The index restricted to the rows with the condition. -/
def restrict (i : Index) (condition : String) : Index :=
  { i with isPartial := true, whereExpr := some condition }

/-- The keys of two lists of texts: an expression wherever there is one, else the column. -/
def keysOf : (columns exprs : List String) → List IndexKey
  | [], _ => []
  | column :: columns, [] => .column column :: keysOf columns []
  | column :: columns, expr :: exprs =>
    (if expr.isEmpty then .column column else .expr expr) :: keysOf columns exprs

/-- The keys of the index, in order. -/
def keys (i : Index) : List IndexKey :=
  keysOf i.columns i.exprs

/-- The name of the index with its schema. -/
def qualifiedName (i : Index) : QualifiedName :=
  ⟨i.schema, i.name⟩

/-- The name of the index as one of a table that lives in the schema. -/
def nameIn (schema : String) (i : Index) : QualifiedName :=
  i.qualifiedName.resolve schema

end Index

end AdditiveSchema
