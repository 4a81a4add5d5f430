import AdditiveSchema.Plan.Dependency
import AdditiveSchema.Table

/-!
# Order of new tables

A new table comes after the tables that it references. Where the references run in a circle, the
first nullable one of the circle is deferred: the table is created without it, and it is added
when all tables are there. A circle of references that may not be null cannot be broken.
-/

namespace AdditiveSchema

/-- A foreign key that is added after its table. -/
structure Deferral where
  table : QualifiedName
  column : String
  foreignKey : ForeignKey
  deriving DecidableEq, Repr

namespace Deferral

/-- Deferrals are ordered by table, then by column. -/
def order : Deferral → Deferral → Ordering :=
  compareLex (compareOn table) (compareOn column)

/-- Both are about the same column of the same table. -/
def sameColumn (a b : Deferral) : Bool :=
  a.table == b.table && a.column == b.column

/-- The foreign key of a column is deferred. -/
def covers (deferred : List Deferral) (table : QualifiedName) (column : String) : Bool :=
  deferred.any fun d => d.table == table && d.column == column

/-- The least of the deferrals, the first of several equal ones. -/
def least? : List Deferral → Option Deferral
  | [] => none
  | a :: as =>
    match least? as with
    | none => some a
    | some b => if order b a = .lt then some b else some a

theorem least?_mem {as : List Deferral} {a : Deferral} (h : least? as = some a) : a ∈ as := by
  induction as generalizing a with
  | nil => simp [least?] at h
  | cons b bs ih =>
    simp only [least?] at h
    split at h
    · cases h
      exact List.mem_cons_self
    · rename_i c hc
      split at h <;> cases h
      · exact List.mem_cons_of_mem _ (ih hc)
      · exact List.mem_cons_self

/-- The deferrals of other columns than that of `d`. -/
def without (d : Deferral) (as : List Deferral) : List Deferral :=
  as.filter (!·.sameColumn d)

theorem length_without_lt {d : Deferral} {as : List Deferral} (h : d ∈ as) :
    (without d as).length < as.length :=
  List.length_filter_lt_length_iff_exists.2 ⟨d, h, by simp [sameColumn]⟩

end Deferral

namespace Table

/-- The foreign keys of the table that a row may leave empty and that lead to another table. -/
def breakable (t : Table) : List Deferral :=
  t.columns.filterMap fun c =>
    match c.references with
    | some fk =>
      if !c.notNull && fk.table != t.qualifiedName then some ⟨t.qualifiedName, c.name, fk⟩
      else none
    | none => none

/-- The tables that the table references with keys that are not deferred. -/
def dependencies (deferred : List Deferral) (t : Table) : List QualifiedName :=
  t.columns.filterMap fun c =>
    match c.references with
    | some fk => if Deferral.covers deferred t.qualifiedName c.name then none else some fk.table
    | none => none

end Table

namespace TableOrder

/-- The references between the tables that are not deferred. -/
def graph (tables : List Table) (deferred : List Deferral) : DependencyGraph QualifiedName :=
  let nodes := tables.foldl (fun g t => g.addNode t.qualifiedName) {}
  tables.foldl (fun g t => (t.dependencies deferred).foldl
    (fun g target => g.addDependency t.qualifiedName target) g) nodes

/-- The foreign key leads from one of the tables to another of them. -/
def isWithin (members : List QualifiedName) (d : Deferral) : Bool :=
  members.contains d.table && members.contains d.foreignKey.table

/-- Sorts the names of the tables, and defers one more of the breakable foreign keys as long as
references run in a circle. -/
def breakCycles (tables : List Table) (deferred breakable : List Deferral) :
    Except (List QualifiedName) (List QualifiedName × List Deferral) :=
  match (graph tables deferred).sort with
  | .ok sorted => .ok (sorted, deferred)
  | .error members =>
    match h : Deferral.least? (breakable.filter (isWithin members)) with
    | none => .error members
    | some d =>
      have := Deferral.length_without_lt (List.mem_filter.1 (Deferral.least?_mem h)).1
      breakCycles tables (deferred ++ [d]) (d.without breakable)
termination_by breakable.length

/-- The first table of each name, in the order of the names. -/
def arrange (tables : List Table) (names : List QualifiedName) : List Table :=
  names.filterMap fun name => tables.find? (·.qualifiedName == name)

/-- The tables without the deferred foreign key. -/
def leaveOut (tables : List Table) (d : Deferral) : List Table :=
  modifyFirst (·.qualifiedName == d.table)
    (·.modifyColumn d.column fun c => { c with references := none }) tables

/-- The new tables in an order in which they can be created, and the foreign keys that are added
afterwards. Where a table may reference one that comes later, nothing is left out of it. The error
holds the tables of the circle. -/
def order (tables : List Table) (forwardReferences : Bool) :
    Except (List QualifiedName) (List Table × List Deferral) := do
  let (names, deferred) ← breakCycles tables [] (tables.flatMap Table.breakable)
  let arranged := arrange tables names
  if forwardReferences then return (arranged, [])
  else return (deferred.foldl leaveOut arranged, deferred)

end TableOrder

end AdditiveSchema
