import AdditiveSchema.Proofs.DeclaredIssues

/-!
# Declared columns

What a field declares, read off its directive: a column under the last name and of the last type
that the directive gives, one use of an index for each `index` and one check for each `check`. A
column that the dialect drops, or whose type in the end is the one that takes it out, adds nothing
to its table.

## Main definitions

* `ColumnDef.columnName`, `ColumnDef.uses`, `ColumnDef.checks` : the column, the uses and the
  checks.
* `TableDef.typeIn` : the type that a column ends up with in a dialect.
* `TableDef.drops`, `TableDef.omits` : the column is not part of the table.

## Main results

* `Declared.readColumn_of_drops`, `Declared.value_readColumn_of_omits` : columns that are left out.
* `Declared.uses_readColumn`, `Declared.checks_readColumn`, `Declared.map_column_readColumn` : all
  other columns.
-/

namespace AdditiveSchema

open Directive

/-! ### What a field declares -/

namespace ColumnDef

/-- The modifiers of the directive of the field. -/
def modifiers (c : ColumnDef) : List Modifier :=
  (Directive.modifiers c.directive).toOption.getD []

/-- The name of the column. -/
def columnName (c : ColumnDef) : String :=
  Declared.nameOr c.field c.modifiers

/-- The values that the directive gives under the name, in order. -/
def values (c : ColumnDef) (name : String) : List String :=
  (c.modifiers.filter (·.name == name)).map (·.value)

/-- The directive makes the column a primary key. -/
def isPrimaryKey (c : ColumnDef) : Bool :=
  c.modifiers.any (·.name == "primarykey")

/-- The type that the directive gives: the last one. -/
def declaredType (c : ColumnDef) : String :=
  (c.values "type").getLast?.getD ""

/-- The keys of indices that the column is declared as, in a table of that name. -/
def uses (table : String) (c : ColumnDef) : List Declared.IndexUse :=
  (c.values "index").filterMap fun value =>
    (Declared.readIndexUse (table ++ "." ++ c.field) c.columnName value).value

/-- The checks of the column, in a table of that name. -/
def checks (table : String) (c : ColumnDef) : List TableConstraint :=
  (c.values "check").map (.check (table ++ "_" ++ c.columnName ++ "_check"))

theorem modifiers_eq {c : ColumnDef} {ms : List Modifier}
    (h : Directive.modifiers c.directive = .ok ms) : c.modifiers = ms := by
  rw [modifiers, h]
  rfl

end ColumnDef

namespace TableDef

/-- What the dialect changes of the column. -/
def override? (declared : TableDef) (d : Dialect) (c : ColumnDef) : Option ColumnOverride :=
  (declared.customization? d).bind (·.column? c.columnName c.field)

/-- The dialect takes the column out of the schema. -/
def drops (declared : TableDef) (d : Dialect) (c : ColumnDef) : Bool :=
  (declared.override? d c).any (·.dropsColumn)

/-- The type that the column ends up with, before a default is picked for its kind. -/
def typeIn (declared : TableDef) (d : Dialect) (c : ColumnDef) : String :=
  ((declared.override? d c).bind (·.columnType)).getD c.declaredType

/-- The column is not part of the table. -/
def omits (declared : TableDef) (d : Dialect) (c : ColumnDef) : Bool :=
  declared.drops d c || declared.typeIn d c == ignoredType

end TableDef

@[simp] theorem Checked.value_map {α β : Type} (f : α → β) (x : Checked α) :
    (f <$> x).value = f x.value := rfl

namespace Declared

/-! ### The modifiers of a column -/

section Modifiers

variable (d : Dialect) (field : String)

theorem name_applyColumnModifier (draft : ColumnDraft) (m : Modifier) :
    (applyColumnModifier d field draft m).value.column.name = draft.column.name := by
  unfold applyColumnModifier
  split <;> rfl

theorem primaryKey_applyColumnModifier (draft : ColumnDraft) (m : Modifier) :
    (applyColumnModifier d field draft m).value.column.primaryKey =
      (draft.column.primaryKey || m.name == "primarykey") := by
  unfold applyColumnModifier
  split <;> simp_all [Column.asPrimaryKey]

theorem columnType_applyColumnModifier (draft : ColumnDraft) (m : Modifier) :
    (applyColumnModifier d field draft m).value.column.columnType =
      if m.name == "type" then m.value else draft.column.columnType := by
  unfold applyColumnModifier
  split <;> simp_all [Column.asPrimaryKey]

theorem indexed_applyColumnModifier (draft : ColumnDraft) (m : Modifier) :
    (applyColumnModifier d field draft m).value.indexed =
      draft.indexed ++ if m.name == "index" then [m.value] else [] := by
  unfold applyColumnModifier
  split <;> simp_all

theorem checks_applyColumnModifier (draft : ColumnDraft) (m : Modifier) :
    (applyColumnModifier d field draft m).value.checks =
      draft.checks ++ if m.name == "check" then [m.value] else [] := by
  unfold applyColumnModifier
  split <;> simp_all

/-- The last type counts. -/
theorem columnType_foldlM (ms : List Modifier) (draft : ColumnDraft) :
    (ms.foldlM (applyColumnModifier d field) draft).value.column.columnType =
      (((ms.filter (·.name == "type")).map (·.value)).getLast?).getD draft.column.columnType := by
  induction ms generalizing draft with
  | nil => rfl
  | cons m ms ih =>
    rw [List.foldlM_cons, Checked.value_bind, ih, columnType_applyColumnModifier, List.filter_cons]
    split
    · rw [List.map_cons, List.getLast?_cons, Option.getD_some]
    · rfl

theorem indexed_foldlM (ms : List Modifier) (draft : ColumnDraft) :
    (ms.foldlM (applyColumnModifier d field) draft).value.indexed =
      draft.indexed ++ (ms.filter (·.name == "index")).map (·.value) := by
  induction ms generalizing draft with
  | nil => exact (List.append_nil _).symm
  | cons m ms ih =>
    rw [List.foldlM_cons, Checked.value_bind, ih, indexed_applyColumnModifier, List.append_assoc,
      List.filter_cons]
    split <;> rfl

theorem checks_foldlM (ms : List Modifier) (draft : ColumnDraft) :
    (ms.foldlM (applyColumnModifier d field) draft).value.checks =
      draft.checks ++ (ms.filter (·.name == "check")).map (·.value) := by
  induction ms generalizing draft with
  | nil => exact (List.append_nil _).symm
  | cons m ms ih =>
    rw [List.foldlM_cons, Checked.value_bind, ih, checks_applyColumnModifier, List.append_assoc,
      List.filter_cons]
    split <;> rfl

theorem primaryKey_foldlM (ms : List Modifier) (draft : ColumnDraft) :
    (ms.foldlM (applyColumnModifier d field) draft).value.column.primaryKey =
      (draft.column.primaryKey || ms.any (·.name == "primarykey")) := by
  induction ms generalizing draft with
  | nil => exact (Bool.or_false _).symm
  | cons m ms ih =>
    rw [List.foldlM_cons, Checked.value_bind, ih, primaryKey_applyColumnModifier, Bool.or_assoc,
      List.any_cons]

theorem name_foldlM (ms : List Modifier) (draft : ColumnDraft) :
    (ms.foldlM (applyColumnModifier d field) draft).value.column.name = draft.column.name :=
  Checked.value_foldlM_induction
    (motive := fun u : ColumnDraft => u.column.name = draft.column.name) rfl
    fun u m hu => (name_applyColumnModifier d field u m).trans hu

end Modifiers

/-! ### Columns that are left out -/

variable {policy : ModifierPolicy} {d : Dialect} {declared : TableDef} {c : ColumnDef}
  {ms : List Modifier}

/-- The column once its directive is read and the dialect has changed it. -/
def draftColumn (d : Dialect) (table : String) (declared : TableDef) (c : ColumnDef) :
    Checked ColumnDraft := do
  let draft ← c.modifiers.foldlM (applyColumnModifier d (table ++ "." ++ c.field))
    { column := { name := c.columnName, kind := some c.kind } }
  let column := match declared.override? d c with
    | some o => o.apply draft.column
    | none => draft.column
  return { draft with column := column }

/-- How a column is read whose directive is accepted. -/
theorem readColumn_eq (h : Directive.modifiers c.directive = .ok ms) (table : String) :
    readColumn d table (declared.customization? d) c =
      if declared.drops d c then pure {}
      else draftColumn d table declared c >>= fun draft =>
        if draft.column.isIgnored then pure {}
        else readParts d table (table ++ "." ++ c.field) c.kind draft := by
  have hoverride : ((declared.customization? d).bind fun custom =>
      custom.column? (nameOr c.field ms) c.field) = declared.override? d c := by
    rw [TableDef.override?, ColumnDef.columnName, ColumnDef.modifiers_eq h]
  cases ho : declared.override? d c with
  | none =>
    simp only [readColumn, h, Checked.ofLexed, pure_bind, draftColumn, TableDef.drops, hoverride,
      ho, ColumnDef.columnName, ColumnDef.modifiers_eq h, bind_assoc]
  | some o =>
    simp only [readColumn, h, Checked.ofLexed, pure_bind, draftColumn, TableDef.drops, hoverride,
      ho, ColumnDef.columnName, ColumnDef.modifiers_eq h, bind_assoc]

section Draft

variable (d : Dialect) (table : String) (declared : TableDef) (c : ColumnDef)

theorem name_draftColumn : (draftColumn d table declared c).value.column.name = c.columnName := by
  simp only [draftColumn, Checked.value_bind, Checked.value_pure]
  split
  · exact name_foldlM d _ c.modifiers _
  · exact name_foldlM d _ c.modifiers _

theorem primaryKey_draftColumn :
    (draftColumn d table declared c).value.column.primaryKey = c.isPrimaryKey := by
  have hflag := primaryKey_foldlM d (table ++ "." ++ c.field) c.modifiers
    { column := { name := c.columnName, kind := some c.kind } }
  rw [Bool.false_or] at hflag
  simp only [draftColumn, Checked.value_bind, Checked.value_pure]
  split
  · exact hflag
  · exact hflag

theorem columnType_draftColumn :
    (draftColumn d table declared c).value.column.columnType = declared.typeIn d c := by
  have htype : (c.modifiers.foldlM (applyColumnModifier d (table ++ "." ++ c.field))
      { column := { name := c.columnName, kind := some c.kind } }).value.column.columnType =
        c.declaredType := columnType_foldlM d _ c.modifiers _
  simp only [draftColumn, Checked.value_bind, Checked.value_pure, TableDef.typeIn]
  split
  · rename_i o ho
    rw [ho, ← htype]
    rfl
  · rename_i hnone
    rw [hnone, ← htype]
    rfl

theorem indexed_draftColumn :
    (draftColumn d table declared c).value.indexed = c.values "index" :=
  indexed_foldlM d _ c.modifiers _

theorem checks_draftColumn :
    (draftColumn d table declared c).value.checks = c.values "check" :=
  checks_foldlM d _ c.modifiers _

end Draft

/-- **A column that the dialect drops** is as good as not declared, whatever its directive says. -/
theorem readColumn_of_drops (h : Directive.modifiers c.directive = .ok ms)
    (hdrops : declared.drops d c = true) (table : String) :
    readColumn d table (declared.customization? d) c = pure {} := by
  rw [readColumn_eq h, if_pos hdrops]

/-- **A column that is left out** adds nothing to its table. -/
theorem value_readColumn_of_omits (h : Directive.modifiers c.directive = .ok ms)
    (homits : declared.omits d c = true) (table : String) :
    (readColumn d table (declared.customization? d) c).value = {} := by
  rw [readColumn_eq h]
  cases hdrops : declared.drops d c with
  | true => rfl
  | false =>
    have hignored : (draftColumn d table declared c).value.column.isIgnored = true := by
      rw [Column.isIgnored, columnType_draftColumn]
      simpa [TableDef.omits, hdrops] using homits
    simp only [Bool.false_eq_true, if_false, Checked.value_bind, hignored, if_true]
    rfl

/-- A column that is not left out is read part by part. -/
theorem readColumn_of_not_omits (h : Directive.modifiers c.directive = .ok ms)
    (homits : declared.omits d c = false) (table : String) :
    readColumn d table (declared.customization? d) c =
      draftColumn d table declared c >>= readParts d table (table ++ "." ++ c.field) c.kind := by
  obtain ⟨hdrops, htype⟩ := Bool.or_eq_false_iff.mp homits
  have hignored : (draftColumn d table declared c).value.column.isIgnored = false := by
    rw [Column.isIgnored, columnType_draftColumn]
    exact htype
  rw [readColumn_eq h, hdrops, if_neg Bool.false_ne_true]
  simp only [bind, hignored, Bool.false_eq_true, if_false]

/-! ### Columns that are not left out -/

/-- **The uses of indices** are those that the directive declares. -/
theorem uses_readColumn (h : Directive.modifiers c.directive = .ok ms) (table : String) :
    (readColumn d table (declared.customization? d) c).value.uses =
      if declared.omits d c then [] else c.uses table := by
  split
  · rename_i homits
    rw [value_readColumn_of_omits h homits]
  · rename_i homits
    rw [readColumn_of_not_omits h (Bool.not_eq_true _ ▸ homits), Checked.value_bind]
    simp only [readParts, Checked.value_bind, Checked.value_pure, Checked.value_mapM,
      List.filterMap_map, Function.id_comp, indexed_draftColumn, name_draftColumn]
    rfl

/-- **The checks** are those that the directive declares. -/
theorem checks_readColumn (h : Directive.modifiers c.directive = .ok ms) (table : String) :
    (readColumn d table (declared.customization? d) c).value.checks =
      if declared.omits d c then [] else c.checks table := by
  split
  · rename_i homits
    rw [value_readColumn_of_omits h homits]
  · rename_i homits
    rw [readColumn_of_not_omits h (Bool.not_eq_true _ ▸ homits), Checked.value_bind]
    simp only [readParts, Checked.value_bind, Checked.value_pure, checks_draftColumn,
      name_draftColumn]
    rfl

/-- **The column** is the one that its directive and the dialect make, but for a type that is picked
for it, if nothing stands in its way. -/
theorem map_column_readColumn {β : Type} {f : Column → β} {g : ColumnDef → β} {table : String}
    (hf : ∀ columnType, f { (draftColumn d table declared c).value.column with columnType } = g c)
    (hsound : (readColumn d table (declared.customization? d) c).IsSound policy) :
    (readColumn d table (declared.customization? d) c).value.column.map f =
      if declared.omits d c then none else some (g c) := by
  obtain ⟨ms, h⟩ := Checked.exists_ok_of_ofLexed (Checked.isSound_bind.mp hsound).1
  split
  · rename_i homits
    rw [value_readColumn_of_omits h homits]
    rfl
  · rename_i homits
    rw [readColumn_of_not_omits h (Bool.not_eq_true _ ▸ homits)] at hsound ⊢
    have hparts := (Checked.isSound_bind.mp (Checked.isSound_bind.mp hsound).2).2
    obtain ⟨columnType, hcolumn⟩ := exists_of_completeColumn (Checked.isSound_bind.mp hparts).1
    simp only [readParts, Checked.value_bind, Checked.value_pure, hcolumn, Option.map_some, hf]

/-! ### The columns of a table -/

/-- What the modifiers of a table and the dialect make of the table that its columns declare. -/
def fillTable (d : Dialect) (declared : TableDef) (ms : List Modifier) (t : Table) :
    Checked (Option Table) := do
  let t ← ms.foldlM (applyTableModifier d) t
  let t ← match declared.customization? d with
    | some custom => addCustom t custom
    | none => pure t
  return some t.foldKeys

/-- How a table is read whose directive is accepted. -/
theorem readTable_eq (declared : TableDef) (h : Directive.modifiers declared.directive = .ok ms) :
    readTable d declared =
      if (nameOr declared.name ms).isEmpty then
        { value := none
          issues := [.invalidValue declared.name "name" "" "table name is empty"] }
      else declared.columns.mapM
          (readColumn d (nameOr declared.name ms) (declared.customization? d)) >>= fun parts =>
        fillTable d declared ms
          (ofParts (declared.schemaIn d) (nameOr declared.name ms) parts) := by
  rw [readTable, h]
  rfl

end Declared

end AdditiveSchema
