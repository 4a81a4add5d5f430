import AdditiveSchema.Keyed
import AdditiveSchema.Table

/-!
# What databases report alike

The readers of the three databases turn rows into tables. This file holds what they share: names
and words that are read in one way everywhere, and foreign keys, of which only those over a single
column belong to a column.
-/

namespace AdditiveSchema.Reported

/-- The name of a primary key that the database does not name. -/
def primaryKeyName (table : String) : String :=
  table ++ "_pkey"

/-- The action that a rule in words stands for. No action is what happens without a rule. -/
def actionOfRule (rule : String) : Option ReferentialAction :=
  match ReferentialAction.read rule with
  | .ok .noAction | .error _ => none
  | .ok action => some action

/-- The method of an index. A method that is not known counts as the usual one. -/
def indexTypeOf (method : String) : IndexType :=
  match IndexType.read method with
  | .ok indexType => indexType
  | .error _ => .btree

/-- The rows whose key no other row has, in the order of the keys. -/
def loneRows {α κ : Type} [Ord κ] [BEq κ] (key : α → κ) (rows : List α) : List α :=
  Keyed.ofList key (rows.filter fun row => rows.countP (key · == key row) == 1)

/-- The table with a foreign key on the first column of that name. -/
def refer (t : Table) (column : String) (fk : ForeignKey) : Table :=
  t.modifyColumn column fun c => { c with references := some fk }

end AdditiveSchema.Reported
