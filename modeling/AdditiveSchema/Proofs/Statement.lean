import AdditiveSchema.Plan.Action
import AdditiveSchema.Proofs.ChangeOrder
import AdditiveSchema.Proofs.Except
import AdditiveSchema.Proofs.TableOrder

/-!
# Which items have statements

A change of an existing table and an index are refused only because the dialect cannot create
them, never for another reason. Whether a new table has statements does not depend on its foreign
keys.

## Main definitions

* `RefusesOnly` : a computation whose errors all say that the dialect stands in the way.
* `Table.IsFullTextIn` : a table for which SQLite has a form of its own.

## Main results

* `Dialect.refusesOnly_createIndex` : why an index has no statement.
* `Action.refusesOnly_statements` : why a change has no statement.
* `Dialect.isOk_createTable_of_isReduct` : leaving foreign keys out of a table.
-/

namespace AdditiveSchema

/-! ### Refusals -/

/-- All errors of the computation say that the dialect stands in the way. -/
def RefusesOnly {α : Type} (x : Except GenerateError α) : Prop :=
  ∀ e, x = .error e → e.isUnsupported = true

namespace RefusesOnly

variable {α β : Type}

theorem ok (a : α) : RefusesOnly (.ok a) :=
  fun _ h => nomatch h

theorem unsupported (d : Dialect) (feature context : String) :
    RefusesOnly (.error (.unsupported d feature context) : Except GenerateError α) := by
  intro e h
  cases h
  rfl

theorem bind {x : Except GenerateError α} {f : α → Except GenerateError β} (hx : RefusesOnly x)
    (hf : ∀ a, RefusesOnly (f a)) : RefusesOnly (x >>= f) := by
  cases x with
  | error e => exact fun e' h => hx e' (by cases h; rfl)
  | ok a => exact hf a

theorem map {x : Except GenerateError α} (hx : RefusesOnly x) (f : α → β) :
    RefusesOnly (x.map f) := by
  cases x with
  | error e => exact fun e' h => hx e' (by cases h; rfl)
  | ok a => exact ok (f a)

end RefusesOnly

namespace Dialect

variable {d : Dialect} {table : QualifiedName}

theorem refusesOnly_columnDefinition (d : Dialect) (table : QualifiedName) (c : Column) :
    RefusesOnly (d.columnDefinition table c) := by
  cases d with
  | postgres =>
    refine RefusesOnly.bind ?_ fun _ => RefusesOnly.ok _
    unfold Postgres.dataType
    split
    · exact RefusesOnly.ok _
    · exact RefusesOnly.ok _
    · split
      · exact RefusesOnly.ok _
      · exact RefusesOnly.unsupported _ _ _
    · exact RefusesOnly.unsupported _ _ _
  | mysql =>
    simp only [columnDefinition, MySql.columnDefinition]
    split
    · exact RefusesOnly.ok _
    · exact RefusesOnly.ok _
    · exact RefusesOnly.unsupported _ _ _
  | sqlite =>
    refine RefusesOnly.bind ?_ fun _ => RefusesOnly.ok _
    unfold Sqlite.dataType
    split
    · exact RefusesOnly.ok _
    · split
      · exact RefusesOnly.ok _
      · exact RefusesOnly.unsupported _ _ _

/-- **Why an index has no statement.** -/
theorem refusesOnly_createIndex (d : Dialect) (table : QualifiedName) (i : Index) :
    RefusesOnly (d.createIndex table i) := by
  cases d with
  | postgres =>
    simp only [createIndex, Standard.createIndex]
    split
    · exact RefusesOnly.unsupported _ _ _
    · exact RefusesOnly.ok _
  | mysql =>
    simp only [createIndex, MySql.createIndex]
    split
    · exact RefusesOnly.unsupported _ _ _
    · split
      · exact RefusesOnly.unsupported _ _ _
      · refine RefusesOnly.bind ?_ fun _ => RefusesOnly.ok _
        unfold MySql.indexForm
        split
        · exact RefusesOnly.ok _
        · exact RefusesOnly.ok _
        · exact RefusesOnly.ok _
        · exact RefusesOnly.ok _
        · exact RefusesOnly.unsupported _ _ _
  | sqlite =>
    simp only [createIndex, Sqlite.createIndex]
    split
    · exact RefusesOnly.unsupported _ _ _
    · split
      · exact RefusesOnly.unsupported _ _ _
      · exact RefusesOnly.ok _

theorem refusesOnly_createColumn (d : Dialect) (table : QualifiedName) (c : Column) :
    RefusesOnly (d.createColumn table c) := by
  have hstandard (d : Dialect) :
      RefusesOnly (Standard.createColumn d (d.columnDefinition table c) table c) :=
    (refusesOnly_columnDefinition d table c).bind fun _ => RefusesOnly.ok _
  cases d with
  | postgres => exact hstandard .postgres
  | mysql => exact hstandard .mysql
  | sqlite =>
    simp only [createColumn, Sqlite.createColumn]
    split
    · exact RefusesOnly.unsupported _ _ _
    · split
      · exact RefusesOnly.unsupported _ _ _
      · split
        · exact RefusesOnly.unsupported _ _ _
        · exact hstandard .sqlite

theorem refusesOnly_createConstraint (d : Dialect) (table : QualifiedName) (k : TableConstraint) :
    RefusesOnly (d.createConstraint table k) := by
  cases d with
  | postgres => exact RefusesOnly.ok _
  | mysql => exact RefusesOnly.ok _
  | sqlite =>
    simp only [createConstraint, Sqlite.createConstraint]
    split
    · exact RefusesOnly.ok _
    · exact RefusesOnly.unsupported _ _ _

end Dialect

/-- **Why a change has no statement.** -/
theorem Action.refusesOnly_statements (d : Dialect) {a : Action} (ha : a.isChange = true) :
    RefusesOnly (a.statements d) := by
  cases a with
  | createColumn table c => exact (d.refusesOnly_createColumn table c).map _
  | createConstraint table k => exact (d.refusesOnly_createConstraint table k).map _
  | createIndex table i => exact (d.refusesOnly_createIndex table i).map _
  | createTable | addForeignKey => cases ha

/-- Where a table may not reference a later one, a foreign key can be added to it. -/
theorem Action.isOk_statements_addForeignKey {d : Dialect} (hd : d.allowsForwardReferences = false)
    (table : QualifiedName) (column : String) (fk : ForeignKey) :
    ((addForeignKey table column fk).statements d).isOk = true := by
  cases d with
  | postgres | mysql => rfl
  | sqlite => cases hd

/-! ### New tables -/

theorem Standard.isOk_createTable (d : Dialect) (definition : Column → Except GenerateError String)
    (index : Index → Except GenerateError Statement) (t : Table) :
    (createTable d definition index t).isOk =
      (!t.columns.isEmpty && t.columns.all (fun c => (definition c).isOk) &&
        t.indices.all fun i => (index i).isOk) := by
  rw [← Except.isOk_mapM, ← Except.isOk_mapM]
  simp only [createTable, tableLines]
  split
  · rename_i h
    simp only [h]
    rfl
  · rename_i h
    simp only [h]
    cases t.columns.mapM definition with
    | error e => rfl
    | ok columns => cases t.indices.mapM index <;> rfl

/-- The form that the dialects share gives a statement for the table, which has columns, and then
those for its indices. -/
theorem Standard.createTable_eq_ok_iff {d : Dialect}
    {definition : Column → Except GenerateError String}
    {index : Index → Except GenerateError Statement} {t : Table} {statements : List Statement} :
    createTable d definition index t = .ok statements ↔
      t.columns ≠ [] ∧ ∃ lines, tableLines d definition t = .ok lines ∧
        ∃ indices, t.indices.mapM index = .ok indices ∧
          statements = tableStatement d t lines :: indices := by
  simp only [createTable]
  split
  · rename_i hempty
    exact ⟨nofun, fun h => absurd (List.isEmpty_iff.mp hempty) h.1⟩
  · rename_i hempty
    rw [Except.bind_eq_ok_iff]
    constructor
    · rintro ⟨lines, hlines, h⟩
      obtain ⟨indices, hindices, h⟩ := Except.bind_eq_ok_iff.mp h
      cases h
      exact ⟨fun hnil => hempty (List.isEmpty_iff.mpr hnil), lines, hlines, indices, hindices, rfl⟩
    · rintro ⟨-, lines, hlines, indices, hindices, rfl⟩
      exact ⟨lines, hlines, Except.bind_eq_ok_iff.mpr ⟨indices, hindices, rfl⟩⟩

/-- The table is a full text table of SQLite, whatever its columns. -/
def Table.IsFullTextIn (d : Dialect) (t : Table) : Prop :=
  d = .sqlite ∧ t.fts5.isSome = true

instance (d : Dialect) (t : Table) : Decidable (t.IsFullTextIn d) :=
  inferInstanceAs (Decidable (_ ∧ _))

namespace Dialect

theorem isOk_createTable_of_isFullTextIn {d : Dialect} {t : Table} (h : t.IsFullTextIn d) :
    (d.createTable t).isOk = true := by
  obtain ⟨rfl, hfts5⟩ := h
  obtain ⟨options, hoptions⟩ := Option.isSome_iff_exists.mp hfts5
  simp only [createTable, Sqlite.createTable, hoptions]
  rfl

/-- All other tables take the form that the dialects share. -/
theorem createTable_of_not_isFullTextIn {d : Dialect} {t : Table} (h : ¬ t.IsFullTextIn d) :
    d.createTable t = Standard.createTable d (d.columnDefinition t.qualifiedName)
      (d.createIndex t.qualifiedName) t := by
  cases d with
  | postgres | mysql => rfl
  | sqlite =>
    have hfts5 : t.fts5 = none := by
      rw [← Option.not_isSome_iff_eq_none]
      exact fun hsome => h ⟨rfl, hsome⟩
    simp only [createTable, Sqlite.createTable, hfts5]
    rfl

theorem isOk_columnDefinition_of_isReduct {d : Dialect} {table : QualifiedName} {e c : Column}
    (h : e.IsReduct c) : (d.columnDefinition table e).isOk = (d.columnDefinition table c).isOk := by
  rcases h with rfl | rfl
  · rfl
  cases d with
  | postgres =>
    simp only [columnDefinition, Postgres.columnDefinition, Except.isOk_bind_pure,
      Postgres.dataType, Column.withoutReference]
  | mysql =>
    simp only [columnDefinition, MySql.columnDefinition]
    cases hmode : c.autoincrement <;> simp only [Column.withoutReference, hmode]
  | sqlite =>
    simp only [columnDefinition, Sqlite.columnDefinition, Except.isOk_bind_pure]
    rfl

/-- **Leaving foreign keys out of a table** makes no difference to its having statements. -/
theorem isOk_createTable_of_isReduct {d : Dialect} {u t : Table} (h : u.IsReduct t) :
    (d.createTable u).isOk = (d.createTable t).isOk := by
  have hname : u.qualifiedName = t.qualifiedName := h.qualifiedName_eq
  have hindices : u.indices = t.indices := by rw [h.rest]
  have hfts5 : u.fts5 = t.fts5 := by rw [h.rest]
  have hcolumns (d : Dialect) :
      (u.columns.all fun c => (d.columnDefinition t.qualifiedName c).isOk) =
        t.columns.all fun c => (d.columnDefinition t.qualifiedName c).isOk := by
    have h := h.columns
    generalize u.columns = es, t.columns = cs at h
    induction h with
    | nil => rfl
    | cons hc _ ih => rw [List.all_cons, List.all_cons, ih, isOk_columnDefinition_of_isReduct hc]
  have hempty : u.columns.isEmpty = t.columns.isEmpty := by
    rw [Bool.eq_iff_iff, List.isEmpty_iff_length_eq_zero, List.isEmpty_iff_length_eq_zero,
      h.columns.length_eq]
  have hstandard (d : Dialect) :
      (Standard.createTable d (d.columnDefinition u.qualifiedName)
        (d.createIndex u.qualifiedName) u).isOk =
      (Standard.createTable d (d.columnDefinition t.qualifiedName)
        (d.createIndex t.qualifiedName) t).isOk := by
    rw [Standard.isOk_createTable, Standard.isOk_createTable, hname, hindices, hcolumns, hempty]
  cases d with
  | postgres => exact hstandard .postgres
  | mysql => exact hstandard .mysql
  | sqlite =>
    simp only [createTable, Sqlite.createTable, hfts5]
    split
    · rfl
    · exact hstandard .sqlite

/-- The arranged tables have statements just if the tables that went in do. -/
theorem isOk_createTable_of_order {d : Dialect} {tables : List Table} {forward : Bool}
    {arranged : List Table} {deferred : List Deferral}
    (hnames : (tables.map Table.qualifiedName).Nodup)
    (h : TableOrder.order tables forward = .ok (arranged, deferred)) :
    (∀ u ∈ arranged, (d.createTable u).isOk = true) ↔
      ∀ t ∈ tables, (d.createTable t).isOk = true := by
  obtain ⟨us, hus, hreducts⟩ := TableOrder.exists_perm_of_order hnames h
  constructor
  · intro hok t ht
    obtain ⟨u, hu, hut⟩ := exists_of_forall₂_right hreducts (hus.mem_iff.mpr ht)
    rw [← isOk_createTable_of_isReduct hut]
    exact hok u hu
  · intro hok u hu
    obtain ⟨t, ht, hut⟩ := exists_of_forall₂_left hreducts hu
    rw [isOk_createTable_of_isReduct hut]
    exact hok t (hus.mem_iff.mp ht)

end Dialect

end AdditiveSchema
