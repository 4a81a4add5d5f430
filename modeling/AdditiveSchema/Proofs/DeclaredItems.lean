import AdditiveSchema.Proofs.DeclaredColumns
import AdditiveSchema.Proofs.DeclaredKeys
import AdditiveSchema.Proofs.List
import AdditiveSchema.Proofs.Table.KeyFlags

/-!
# What a declared table holds

A definition names everything that its table holds: its columns, and the constraints and the
indices, which the directives of the columns, the directive of the table and the customization of
the dialect declare. If nothing stands in the way of the schema, there is one table for each
definition that the dialect has, in the order of the definitions, and each of them holds what its
definition declares: the items of the columns first, then those of the directive, then those of the
customization, nothing more and nothing less. Only keys for which a flag of their column stands are
not among its constraints, and a column has the flag of a primary key if its directive or such a key
says so.

## Main definitions

* `TableDef.columnsIn`, `TableDef.keyFlagsIn`, `TableDef.constraintsIn`, `TableDef.indicesIn` : what
  a definition declares for a dialect.
* `TableDef.Declares` : the table holds what the definition declares.
* `Declared.ReadsAs` : the definition is read as the table.

## Main results

* `Declared.adds_applyTableModifier`, `Declared.exists_adds_fillTable` : what one modifier adds to a
  table, and what all of them and the customization do.
* `DeclaredSchema.forall₂_declares_of_build` : the tables of a declared schema.
* `DeclaredSchema.exists_mem_tables_of_build`, `DeclaredSchema.neverFolds_of_build`,
  `DeclaredSchema.usesOwnColumns_of_build` : their keys, constraints and indices.
-/

namespace AdditiveSchema

open Directive

/-! ### What modifiers declare -/

namespace Declared

/-- The check that a text declares for a table of that name. -/
def tableCheck? (table value : String) : Option TableConstraint :=
  match valueAndModifiers value with
  | .ok (label, modifiers) =>
    some (.check ((label? label).getD (table ++ "_check"))
      (modifiers.foldlM (applyCheckModifier table) "").value)
  | .error _ => none

/-- The index that a text declares for a table of that name. -/
def tableIndex? (table value : String) : Option Index :=
  match valueAndModifiers value with
  | .ok (label, modifiers) =>
    let draft := (modifiers.foldlM (applyTableIndexModifier table) {}).value
    let name := (label? label).getD (table ++ "_" ++ "_".intercalate draft.columns ++ "_idx")
    some (draft.columns.foldl Index.addColumn { draft.index with name := name })
  | .error _ => none

/-- The constraint that a modifier of the table declares, if it declares one. -/
def modifierConstraint? (table : String) (m : Modifier) : Option TableConstraint :=
  if m.name == "check" then tableCheck? table m.value else tableKey? table m

/-- The index that a modifier of the table declares, if it declares one. -/
def modifierIndex? (table : String) (m : Modifier) : Option Index :=
  if m.name == "index" then tableIndex? table m.value else none

end Declared

/-! ### What definitions declare -/

namespace TableDef

variable (declared : TableDef) (d : Dialect)

/-- The name of the table without its schema. -/
def tableName : String :=
  Declared.nameOr declared.name declared.modifiers

/-- What the dialect changes of the table. -/
def customizationIn : Customization :=
  (declared.customization? d).getD {}

/-- The columns that the table has in the dialect. -/
def columnsIn : List ColumnDef :=
  declared.columns.filter fun c => !declared.omits d c

variable {declared d} in
theorem mem_columnsIn {c : ColumnDef} :
    c ∈ declared.columnsIn d ↔ c ∈ declared.columns ∧ declared.omits d c = false := by
  rw [columnsIn, List.mem_filter, Bool.not_eq_true']

variable {declared d} in
theorem drops_of_mem_columnsIn {c : ColumnDef} (h : c ∈ declared.columnsIn d) :
    declared.drops d c = false :=
  (Bool.or_eq_false_iff.mp (mem_columnsIn.mp h).2).1

/-- The names of the columns. -/
def columnNamesIn : List String :=
  (declared.columnsIn d).map (·.columnName)

/-- The uses of indices that the columns declare. -/
def usesIn : List Declared.IndexUse :=
  (declared.columnsIn d).flatMap (·.uses declared.tableName)

/-- The indices that the table itself declares, and those that the dialect adds. -/
def tableIndicesIn : List Index :=
  declared.modifiers.filterMap (Declared.modifierIndex? declared.tableName) ++
    (declared.customizationIn d).indices.filterMap fun directive =>
      Declared.tableIndex? declared.tableName (Declared.bareIndex directive)

/-- The indices that the definition declares. -/
def indicesIn : List Index :=
  (Declared.groupUses (declared.usesIn d)).map (Declared.assembleIndex declared.tableName) ++
    declared.tableIndicesIn d

/-- The constraints that the table itself declares, and those that the dialect adds. -/
def tableConstraintsIn : List TableConstraint :=
  declared.modifiers.filterMap (Declared.modifierConstraint? declared.tableName) ++
    (declared.customizationIn d).checks.map fun check => .check check.name check.expr

/-- The constraints that the definition declares. -/
def constraintsIn : List TableConstraint :=
  (declared.columnsIn d).flatMap (·.checks declared.tableName) ++ declared.tableConstraintsIn d

/-- Which of the columns are primary keys by a flag. -/
def keyFlagsIn : List Bool :=
  keyFlags ((declared.columnsIn d).map fun c => (c.columnName, c.isPrimaryKey))
    (declared.constraintsIn d)

/-- The constraints among them that do not become flags of their columns. -/
def standingConstraintsIn : List TableConstraint :=
  (declared.constraintsIn d).filter fun k => ¬k.IsFlag declared.tableName

end TableDef

/-- The keys of a definition are among its constraints. -/
theorem TableDef.mem_constraintsIn_of_mem_keys {declared : TableDef} (d : Dialect)
    {k : TableConstraint} (h : k ∈ declared.keys) : k ∈ declared.constraintsIn d := by
  obtain ⟨m, hm, hk⟩ := List.mem_filterMap.mp h
  have hcheck : ¬(m.name == "check") = true := fun hname => by
    simp [Declared.tableKey?, eq_of_beq hname, Declared.KeyKind.ofName?] at hk
  refine List.mem_append_right _ (List.mem_append_left _ (List.mem_filterMap.mpr ⟨m, hm, ?_⟩))
  rw [Declared.modifierConstraint?, if_neg hcheck]
  exact hk

theorem Declared.schema_of_tableIndex? {table value : String} {i : Index}
    (h : tableIndex? table value = some i) : i.schema = "" := by
  have hmodifier (draft : IndexDraft) (m : Modifier) :
      (applyTableIndexModifier table draft m).value.index.schema = draft.index.schema := by
    unfold applyTableIndexModifier
    split <;> rfl
  have hcolumns (names : List String) (i : Index) :
      (names.foldl Index.addColumn i).schema = i.schema := by
    induction names generalizing i with
    | nil => rfl
    | cons name names ih => exact ih (i.addColumn name)
  unfold tableIndex? at h
  split at h
  · rename_i label modifiers _
    have hschema : (modifiers.foldlM (applyTableIndexModifier table) {}).value.index.schema = "" :=
      Checked.value_foldlM_induction (motive := fun draft => draft.index.schema = "") rfl
        fun draft m hdraft => (hmodifier draft m).trans hdraft
    cases h
    exact (hcolumns _ _).trans hschema
  · cases h

namespace TableDef

variable {declared : TableDef} {d : Dialect} {i : Index}

theorem mem_indicesIn_iff :
    i ∈ declared.indicesIn d ↔
      (∃ group ∈ Declared.groupUses (declared.usesIn d),
        Declared.assembleIndex declared.tableName group = i) ∨ i ∈ declared.tableIndicesIn d := by
  rw [indicesIn, List.mem_append, List.mem_map]

/-- A use stands on a column of the table. -/
theorem column_mem_of_mem_usesIn {u : Declared.IndexUse} (hu : u ∈ declared.usesIn d) :
    u.column ∈ declared.columnNamesIn d := by
  obtain ⟨c, hc, hu⟩ := List.mem_flatMap.mp hu
  obtain ⟨value, -, hread⟩ := List.mem_filterMap.mp hu
  rw [Declared.column_of_readIndexUse hread]
  exact List.mem_map_of_mem hc

/-- The key of a use is one of an index. -/
theorem exists_key_mem_keys {u : Declared.IndexUse} (hu : u ∈ declared.usesIn d) :
    ∃ i ∈ declared.indicesIn d, u.key ∈ i.keys := by
  obtain ⟨group, hgroup, hu⟩ := Declared.mem_iff_mem_groupUses.mp hu
  refine ⟨_, mem_indicesIn_iff.mpr (Or.inl ⟨group, hgroup, rfl⟩), ?_⟩
  rw [Declared.keys_assembleIndex]
  exact List.mem_map_of_mem (List.mem_mergeSort.mpr hu)

/-- The checks of columns are over no columns, so all constraints are over columns of the table if
those of the table itself are. -/
theorem mem_columnNamesIn_of_mem_constraintsIn
    (h : ∀ k ∈ declared.tableConstraintsIn d, ∀ name ∈ k.columns, name ∈ declared.columnNamesIn d)
    {k : TableConstraint} (hk : k ∈ declared.constraintsIn d) :
    ∀ name ∈ k.columns, name ∈ declared.columnNamesIn d := by
  rcases List.mem_append.mp hk with hk | hk
  · obtain ⟨c, -, hk⟩ := List.mem_flatMap.mp hk
    obtain ⟨expr, -, rfl⟩ := List.mem_map.mp hk
    exact nofun
  · exact h k hk

theorem exists_text_of_mem_tableIndicesIn (h : i ∈ declared.tableIndicesIn d) :
    ∃ text, Declared.tableIndex? declared.tableName text = some i := by
  rcases List.mem_append.mp h with h | h
  · obtain ⟨m, -, h⟩ := List.mem_filterMap.mp h
    unfold Declared.modifierIndex? at h
    split at h
    · exact ⟨m.value, h⟩
    · cases h
  · obtain ⟨directive, -, h⟩ := List.mem_filterMap.mp h
    exact ⟨_, h⟩

/-- A declared index lives where its table does. -/
theorem schema_of_mem_indicesIn (h : i ∈ declared.indicesIn d) : i.schema = "" := by
  rcases mem_indicesIn_iff.mp h with ⟨group, -, rfl⟩ | h
  · exact Declared.schema_assembleIndex _ group
  · obtain ⟨text, h⟩ := exists_text_of_mem_tableIndicesIn h
    exact Declared.schema_of_tableIndex? h

end TableDef

/-! ### What steps add to a table -/

/-- The table is the other one with these constraints and indices behind its own, but for the
options of a full text table. They are over columns of the table, the indices over one at least. -/
structure Table.Adds (u t : Table) (ks : List TableConstraint) (is : List Index) : Prop where
  qualifiedName : u.qualifiedName = t.qualifiedName
  columns : u.columns = t.columns
  constraints : u.constraints = t.constraints ++ ks
  indices : u.indices = t.indices ++ is
  ownConstraints : ∀ k ∈ ks, ∀ name ∈ k.columns, name ∈ t.columns.map (·.name)
  ownIndices : ∀ i ∈ is, ∀ name ∈ i.columns, name ∈ t.columns.map (·.name)
  keyedIndices : ∀ i ∈ is, i.columns ≠ []

namespace Table.Adds

variable {t u v : Table} {ks ks' : List TableConstraint} {is is' : List Index}

theorem refl (t : Table) : t.Adds t [] [] :=
  ⟨rfl, rfl, (List.append_nil _).symm, (List.append_nil _).symm, nofun, nofun, nofun⟩

theorem trans (hvu : v.Adds u ks' is') (hut : u.Adds t ks is) :
    v.Adds t (ks ++ ks') (is ++ is') where
  qualifiedName := hvu.qualifiedName.trans hut.qualifiedName
  columns := hvu.columns.trans hut.columns
  constraints := by rw [hvu.constraints, hut.constraints, List.append_assoc]
  indices := by rw [hvu.indices, hut.indices, List.append_assoc]
  ownConstraints :=
    List.forall_mem_append.mpr ⟨hut.ownConstraints, hut.columns ▸ hvu.ownConstraints⟩
  ownIndices := List.forall_mem_append.mpr ⟨hut.ownIndices, hut.columns ▸ hvu.ownIndices⟩
  keyedIndices := List.forall_mem_append.mpr ⟨hut.keyedIndices, hvu.keyedIndices⟩

theorem addConstraint {t : Table} {k : TableConstraint}
    (hk : ∀ name ∈ k.columns, name ∈ t.columns.map (·.name)) : (t.addConstraint k).Adds t [k] [] :=
  ⟨rfl, rfl, rfl, (List.append_nil _).symm, fun _ hj => List.mem_singleton.mp hj ▸ hk, nofun, nofun⟩

theorem addCheck (t : Table) (name expr : String) :
    (t.addConstraint (.check name expr)).Adds t [.check name expr] [] :=
  .addConstraint nofun

theorem addIndex {t : Table} {i : Index} (hi : ∀ name ∈ i.columns, name ∈ t.columns.map (·.name))
    (hne : i.columns ≠ []) : (t.addIndex i).Adds t [] [i] :=
  ⟨rfl, rfl, (List.append_nil _).symm, rfl, nofun, fun _ hj => List.mem_singleton.mp hj ▸ hi,
    fun _ hj => List.mem_singleton.mp hj ▸ hne⟩

theorem name (h : u.Adds t ks is) : u.name = t.name :=
  congrArg QualifiedName.name h.qualifiedName

end Table.Adds

namespace Declared

variable {policy : ModifierPolicy} {d : Dialect} {t : Table}

theorem adds_addTableIndex {value : String} (h : (addTableIndex t value).IsSound policy) :
    (addTableIndex t value).value.Adds t [] (tableIndex? t.name value).toList := by
  obtain ⟨⟨label, modifiers⟩, hlex⟩ := Checked.exists_ok_of_ofLexed (Checked.isSound_bind.mp h).1
  rw [addTableIndex, hlex, Checked.ofLexed, pure_bind] at h ⊢
  have hcheck := value_checkColumns (Checked.isSound_bind.mp (Checked.isSound_bind.mp h).2).1
  simp only [Checked.value_bind, hcheck, if_true, tableIndex?, hlex]
  refine .addIndex ?_ ?_
  · rw [Index.columns_foldl_addColumn]
    simp only [columns_foldlM_applyTableIndexModifier, List.nil_append]
    exact mem_of_checkColumns hcheck
  · rw [Index.columns_foldl_addColumn]
    simp only [columns_foldlM_applyTableIndexModifier, List.nil_append]
    exact ne_nil_of_checkColumns hcheck

theorem adds_addTableKey {kind : KeyKind} {m : Modifier}
    (hkind : KeyKind.ofName? m.name = some kind)
    (h : (addTableKey kind t m).IsSound policy) :
    (addTableKey kind t m).value.Adds t (tableKey? t.name m).toList [] := by
  obtain ⟨⟨label, modifiers⟩, hlex⟩ := Checked.exists_ok_of_ofLexed (Checked.isSound_bind.mp h).1
  rw [addTableKey, hlex, Checked.ofLexed, pure_bind] at h ⊢
  have hcheck := value_checkColumns (Checked.isSound_bind.mp (Checked.isSound_bind.mp h).2).1
  simp only [Checked.value_bind, hcheck, if_true, tableKey?, hkind, hlex]
  refine .addConstraint ?_
  cases kind <;> exact mem_of_checkColumns hcheck

theorem adds_addTableCheck {value : String} (h : (addTableCheck t value).IsSound policy) :
    (addTableCheck t value).value.Adds t (tableCheck? t.name value).toList [] := by
  obtain ⟨⟨label, modifiers⟩, hlex⟩ := Checked.exists_ok_of_ofLexed (Checked.isSound_bind.mp h).1
  rw [addTableCheck, hlex, Checked.ofLexed, pure_bind] at h ⊢
  simp only [Checked.value_bind, tableCheck?, hlex]
  obtain ⟨-, h⟩ := Checked.isSound_bind.mp h
  split at h
  · cases h _ List.mem_cons_self
  · rename_i hexpr
    rw [if_neg hexpr]
    exact .addCheck t _ _

theorem adds_setFullText (t : Table) (value : String) :
    (setFullText t value).value.Adds t [] [] := by
  have hnil := Table.Adds.refl t
  simp only [setFullText, Checked.value_bind]
  split
  · exact hnil
  · exact ⟨rfl, rfl, hnil.constraints, hnil.indices, nofun, nofun, nofun⟩

/-- **One modifier** adds the constraint or the index that it declares, and nothing else. -/
theorem adds_applyTableModifier {m : Modifier} (h : (applyTableModifier d t m).IsSound policy) :
    (applyTableModifier d t m).value.Adds t (modifierConstraint? t.name m).toList
      (modifierIndex? t.name m).toList := by
  unfold modifierConstraint? modifierIndex?
  unfold applyTableModifier at h ⊢
  -- one case for each name that a modifier of a table may have, and one for all other names
  split at h
  · rename_i hname
    simpa [hname, tableKey?, KeyKind.ofName?] using Table.Adds.refl t
  · rename_i hname
    simpa [hname, tableKey?, KeyKind.ofName?] using adds_addTableIndex h
  · rename_i hname
    simpa [hname] using adds_addTableKey (by simp [hname, KeyKind.ofName?]) h
  · rename_i hname
    simpa [hname] using adds_addTableKey (by simp [hname, KeyKind.ofName?]) h
  · rename_i hname
    simpa [hname] using adds_addTableCheck h
  · rename_i hname
    have hfull : (if d = .sqlite then setFullText t m.value else pure t).value.Adds t [] [] := by
      split
      · exact adds_setFullText t m.value
      · exact .refl t
    simpa [hname, tableKey?, KeyKind.ofName?] using hfull
  · rename_i hindex hunique hprimary hcheck _
    simpa [if_neg hindex, if_neg hcheck, tableKey?, KeyKind.ofName?, hunique, hprimary] using
      Table.Adds.refl t

/-- What a row of steps adds is what they add one by one, if that depends on the name only. -/
theorem adds_foldlM {α : Type} {step : Table → α → Checked Table}
    (k? : String → α → Option TableConstraint) (i? : String → α → Option Index)
    (hstep : ∀ {t a}, (step t a).IsSound policy →
      (step t a).value.Adds t (k? t.name a).toList (i? t.name a).toList)
    {as : List α} (h : (as.foldlM step t).IsSound policy) :
    (as.foldlM step t).value.Adds t (as.filterMap (k? t.name)) (as.filterMap (i? t.name)) := by
  induction as generalizing t with
  | nil => exact .refl t
  | cons a as ih =>
    rw [List.foldlM_cons] at h ⊢
    obtain ⟨hfirst, hrest⟩ := Checked.isSound_bind.mp h
    have hadds := hstep hfirst
    have hrest := ih hrest
    rw [hadds.name] at hrest
    simpa only [List.filterMap_eq_flatMap_toList, List.flatMap_cons, Checked.value_bind] using
      hrest.trans hadds

theorem adds_checks (t : Table) (checks : List CheckDef) :
    (checks.foldl (fun t check => t.addConstraint (.check check.name check.expr)) t).Adds t
      (checks.map fun check => .check check.name check.expr) [] := by
  induction checks generalizing t with
  | nil => exact .refl t
  | cons check checks ih => exact (ih _).trans (.addCheck t check.name check.expr)

/-- The customization of a dialect adds its indices and its checks. -/
theorem adds_addCustom {custom : Customization} (h : (addCustom t custom).IsSound policy) :
    (addCustom t custom).value.Adds t
      (custom.checks.map fun check => .check check.name check.expr)
      (custom.indices.filterMap fun directive => tableIndex? t.name (bareIndex directive)) := by
  have hindices := adds_foldlM (fun _ _ => none)
    (fun table directive => tableIndex? table (bareIndex directive)) adds_addTableIndex
    (Checked.isSound_bind.mp h).1
  have hchecks := adds_checks
    (custom.indices.foldlM (fun t directive => addTableIndex t (bareIndex directive)) t).value
    custom.checks
  simpa [addCustom] using hchecks.trans hindices

/-- **All modifiers and the customization** add what the definition declares beside its columns. -/
theorem exists_adds_fillTable {declared : TableDef} (hname : t.name = declared.tableName)
    (h : (fillTable d declared declared.modifiers t).IsSound policy) :
    ∃ u : Table, (fillTable d declared declared.modifiers t).value = some u.foldKeys ∧
      u.Adds t (declared.tableConstraintsIn d) (declared.tableIndicesIn d) := by
  obtain ⟨hmodifiers, hrest⟩ := Checked.isSound_bind.mp h
  let u := (declared.modifiers.foldlM (applyTableModifier d) t).value
  have hadds : u.Adds t _ _ := adds_foldlM _ _ adds_applyTableModifier hmodifiers
  unfold TableDef.tableConstraintsIn TableDef.tableIndicesIn TableDef.customizationIn
  rw [← hname]
  cases hcustom : declared.customization? d with
  | none =>
    refine ⟨u, by rw [fillTable, hcustom]; rfl, ?_⟩
    simpa using hadds
  | some custom =>
    simp only [hcustom] at hrest
    have hrest := adds_addCustom (Checked.isSound_bind.mp hrest).1
    rw [hadds.name] at hrest
    exact ⟨(addCustom u custom).value, by rw [fillTable, hcustom]; rfl, hrest.trans hadds⟩

/-! ### What columns add to a table -/

section Columns

variable {declared : TableDef} {table : String}

/-- The columns of the table, one for each column of the definition that the dialect has. -/
theorem map_readColumns {β : Type} {f : Column → β} {g : ColumnDef → β}
    (hf : ∀ c columnType,
      f { (draftColumn d table declared c).value.column with columnType } = g c)
    (h : (declared.columns.mapM (readColumn d table (declared.customization? d))).IsSound policy) :
    (((declared.columns.mapM (readColumn d table (declared.customization? d))).value.filterMap
      (·.column)).map f) = (declared.columnsIn d).map g := by
  rw [Checked.value_mapM, List.filterMap_map, List.map_filterMap, TableDef.columnsIn,
    ← List.filterMap_eq_map, List.filterMap_filter]
  refine List.filterMap_congr fun c hc => ?_
  have hcolumn := map_column_readColumn (hf c) (Checked.isSound_mapM.mp h c hc)
  simp only [Function.comp_apply, hcolumn]
  cases declared.omits d c <;> rfl

/-- What is collected of all columns is what is collected of those that the dialect has, if the
others add nothing. -/
theorem flatMap_readColumns {α : Type} {f : ColumnParts → List α} {g : ColumnDef → List α}
    (hf : ∀ {c : ColumnDef} {ms : List Modifier}, modifiers c.directive = .ok ms →
      f (readColumn d table (declared.customization? d) c).value =
        if declared.omits d c then [] else g c)
    (h : (declared.columns.mapM (readColumn d table (declared.customization? d))).IsSound policy) :
    (declared.columns.mapM (readColumn d table (declared.customization? d))).value.flatMap f =
      (declared.columnsIn d).flatMap g := by
  rw [Checked.value_mapM, List.flatMap_map, TableDef.columnsIn, flatMap_filter]
  refine List.flatMap_congr fun c hc => ?_
  obtain ⟨ms, hms⟩ :=
    Checked.exists_ok_of_ofLexed (Checked.isSound_bind.mp (Checked.isSound_mapM.mp h c hc)).1
  rw [hf hms]
  cases declared.omits d c <;> rfl

end Columns

end Declared

/-! ### One definition -/

/-- The table holds what the definition declares for the dialect, and what the table itself declares
is over its columns, its indices over one at least. -/
structure TableDef.Declares (declared : TableDef) (d : Dialect) (t : Table) : Prop where
  qualifiedName : t.qualifiedName = declared.nameIn d
  columns : t.columns.map (·.name) = declared.columnNamesIn d
  keyFlags : t.columns.map (·.primaryKey) = declared.keyFlagsIn d
  constraints : t.constraints = declared.standingConstraintsIn d
  indices : t.indices = declared.indicesIn d
  ownConstraints : ∀ k ∈ declared.tableConstraintsIn d, ∀ name ∈ k.columns,
    name ∈ declared.columnNamesIn d
  ownIndices : ∀ i ∈ declared.tableIndicesIn d, ∀ name ∈ i.columns, name ∈ declared.columnNamesIn d
  keyedIndices : ∀ i ∈ declared.tableIndicesIn d, i.columns ≠ []

namespace TableDef.Declares

variable {declared : TableDef} {d : Dialect} {t : Table}

theorem name (h : declared.Declares d t) : t.name = declared.tableName :=
  congrArg QualifiedName.name h.qualifiedName

theorem mem_constraints_iff (h : declared.Declares d t) {k : TableConstraint} :
    k ∈ t.constraints ↔ k ∈ declared.constraintsIn d ∧ ¬k.IsFlag t.name := by
  rw [h.constraints, h.name, standingConstraintsIn, List.mem_filter, decide_eq_true_iff]

/-- The table names only its own columns in constraints and indices. -/
theorem usesOwnColumns (h : declared.Declares d t) : t.UsesOwnColumns := by
  constructor
  · intro k hk
    rw [h.columns]
    exact mem_columnNamesIn_of_mem_constraintsIn h.ownConstraints (h.mem_constraints_iff.mp hk).1
  · intro i hi name hname
    rw [h.columns]
    rcases mem_indicesIn_iff.mp (h.indices ▸ hi) with ⟨group, hgroup, rfl⟩ | hi
    · refine (Declared.mem_columns_assembleIndex hname).imp_right ?_
      rintro ⟨u, hu, rfl⟩
      exact column_mem_of_mem_usesIn (Declared.mem_of_mem_groupUses hgroup hu)
    · exact Or.inr (h.ownIndices i hi name hname)

/-- No constraint of the table becomes a flag any more, whatever columns the table is given. -/
theorem neverFolds (h : declared.Declares d t) {k : TableConstraint} (hk : k ∈ t.constraints) :
    Table.NeverFolds t.name k :=
  Table.neverFolds_iff.mpr (h.mem_constraints_iff.mp hk).2

end TableDef.Declares

namespace Declared

variable {policy : ModifierPolicy} {d : Dialect} {declared : TableDef}

/-- The columns of a definition are read one by one; what its modifiers and the customization add
comes behind them. -/
theorem exists_adds_readTable (h : (readTable d declared).IsSound policy) :
    let parts := declared.columns.mapM
      (readColumn d declared.tableName (declared.customization? d))
    parts.IsSound policy ∧ ∃ u : Table, (readTable d declared).value = some u.foldKeys ∧
      u.Adds (ofParts (declared.schemaIn d) declared.tableName parts.value)
        (declared.tableConstraintsIn d) (declared.tableIndicesIn d) := by
  obtain ⟨ms, hms⟩ := Checked.exists_ok_of_ofLexed (Checked.isSound_bind.mp h).1
  obtain rfl : declared.modifiers = ms := TableDef.modifiers_eq hms
  rw [readTable_eq declared hms] at h ⊢
  split at h
  · cases h _ List.mem_cons_self
  · rename_i hname
    rw [if_neg hname]
    obtain ⟨hcolumns, h⟩ := Checked.isSound_bind.mp h
    exact ⟨hcolumns, exists_adds_fillTable rfl h⟩

/-- **The table of a definition** holds what the definition declares. -/
theorem exists_declares_of_isSound (h : (readTable d declared).IsSound policy) :
    ∃ t, (readTable d declared).value = some t ∧ declared.Declares d t := by
  obtain ⟨hcolumns, u, hu, hadds⟩ := exists_adds_readTable h
  have hnames : _ = declared.columnNamesIn d := map_readColumns (f := (·.name))
    (fun c _ => name_draftColumn d declared.tableName declared c) hcolumns
  have hflags := map_readColumns (f := fun c => (c.name, c.primaryKey))
    (g := fun c => (c.columnName, c.isPrimaryKey))
    (fun c _ => Prod.ext (name_draftColumn d declared.tableName declared c)
      (primaryKey_draftColumn d declared.tableName declared c)) hcolumns
  have hchecks := flatMap_readColumns (checks_readColumn · declared.tableName) hcolumns
  have huses := flatMap_readColumns (uses_readColumn · declared.tableName) hcolumns
  have hunames : u.columns.map (·.name) = declared.columnNamesIn d := by
    rw [hadds.columns]
    exact hnames
  have hconstraints : u.constraints = declared.constraintsIn d := by
    rw [hadds.constraints, TableDef.constraintsIn, ← hchecks]
    rfl
  have htable := hnames ▸ hadds.ownConstraints
  have hown : u.ConstrainsOwnColumns := fun k hk => by
    rw [hunames]
    exact TableDef.mem_columnNamesIn_of_mem_constraintsIn htable (hconstraints ▸ hk)
  refine ⟨u.foldKeys, hu, hadds.qualifiedName, ?_, ?_, ?_, ?_, htable, hnames ▸ hadds.ownIndices,
    hadds.keyedIndices⟩
  · rw [Table.map_name_columns_foldKeys, hunames]
  · rw [Table.map_primaryKey_foldKeys, hconstraints, hadds.columns, TableDef.keyFlagsIn, ← hflags]
    rfl
  · rw [Table.constraints_foldKeys hown, hconstraints, hadds.name]
    rfl
  · rw [TableDef.indicesIn, TableDef.usesIn, ← huses]
    exact hadds.indices

/-- The definition is read as the table, and nothing stands in its way. -/
structure ReadsAs (policy : ModifierPolicy) (d : Dialect) (declared : TableDef) (t : Table) :
    Prop where
  isSound : (readTable d declared).IsSound policy
  value : (readTable d declared).value = some t

theorem ReadsAs.declares {t : Table} (h : ReadsAs policy d declared t) : declared.Declares d t := by
  obtain ⟨u, hu, hdeclares⟩ := exists_declares_of_isSound h.isSound
  obtain rfl : u = t := Option.some.inj (hu.symm.trans h.value)
  exact hdeclares

end Declared

/-! ### All definitions -/

namespace DeclaredSchema

variable {d : Dialect} {policy : ModifierPolicy} {definitions : List TableDef} {s : DeclaredSchema}

/-- If nothing stands in the way, each definition adds the table that it is read as. -/
theorem exists_addDefinition {declared : TableDef} {tables : List Table}
    (h : (addDefinition d policy tables declared).IsSound policy) :
    ∃ t, (addDefinition d policy tables declared).value = tables ++ [t] ∧
      Declared.ReadsAs policy d declared t := by
  obtain ⟨hkeep, h⟩ := Checked.isSound_bind.mp h
  rw [Checked.IsSound, Declared.issues_keepSound] at hkeep
  obtain ⟨t, ht, -⟩ := Declared.exists_declares_of_isSound hkeep
  rw [addDefinition, Declared.keepSound_of_isSound hkeep, Checked.value_bind, ht]
  simp only [Declared.keepSound_of_isSound hkeep, ht] at h
  split at h
  · cases h _ List.mem_cons_self
  · rename_i hnew
    simp only [if_neg hnew]
    exact ⟨t, rfl, hkeep, ht⟩

theorem forall₂_foldlM_addDefinition {tables : List Table}
    (h : (definitions.foldlM (addDefinition d policy) tables).IsSound policy) :
    ∃ added, (definitions.foldlM (addDefinition d policy) tables).value = tables ++ added ∧
      List.Forall₂ (Declared.ReadsAs policy d) definitions added := by
  induction definitions generalizing tables with
  | nil => exact ⟨[], (List.append_nil _).symm, .nil⟩
  | cons declared definitions ih =>
    rw [List.foldlM_cons] at h ⊢
    obtain ⟨hfirst, hrest⟩ := Checked.isSound_bind.mp h
    obtain ⟨t, ht, hreads⟩ := exists_addDefinition hfirst
    obtain ⟨added, hadded, hall⟩ := ih hrest
    refine ⟨t :: added, ?_, .cons hreads hall⟩
    rw [Checked.value_bind, hadded, ht, List.append_assoc, List.singleton_append]

/-- The tables of a declared schema are those that its definitions are read as, one for each
definition that the dialect has, with their references filled in. -/
theorem forall₂_readsAs_of_build (h : build d policy definitions = .ok s) :
    ∃ added, s.tables = added.map (Declared.link added) ∧
      List.Forall₂ (Declared.ReadsAs policy d) (kept d definitions) added := by
  obtain ⟨added, hadded, hall⟩ := forall₂_foldlM_addDefinition (isSound_of_build h)
  have hdrafts : drafts d policy definitions = added := hadded
  exact ⟨added, hdrafts ▸ tables_of_build h, hall⟩

/-- Filling in references changes nothing of what a definition declares. -/
theorem declares_link {declared : TableDef} {tables : List Table} {t : Table}
    (h : declared.Declares d t) : declared.Declares d (Declared.link tables t) :=
  { h with
    columns := (Declared.map_name_columns_link tables t).trans h.columns
    keyFlags := (Declared.map_columns_link (fun _ _ => rfl) tables t).trans h.keyFlags }

/-- **What the tables of a declared schema hold.** There is one table for each definition that the
dialect has, in the order of the definitions, and it holds what its definition declares: the
columns, the constraints but for those that became flags, and the indices, nothing else. -/
theorem forall₂_declares_of_build (h : build d policy definitions = .ok s) :
    List.Forall₂ (·.Declares d ·) (kept d definitions) s.tables := by
  obtain ⟨added, htables, hall⟩ := forall₂_readsAs_of_build h
  rw [htables, List.forall₂_map_right_iff]
  exact hall.imp fun _ _ hreads => declares_link hreads.declares

/-- The table of a definition that the dialect has alone. -/
theorem exists_declares_of_kept {declared : TableDef} (hkept : kept d definitions = [declared])
    (h : build d policy definitions = .ok s) : ∃ t, s.tables = [t] ∧ declared.Declares d t := by
  have hall := forall₂_declares_of_build h
  rw [hkept] at hall
  obtain ⟨t, rest, hdeclares, hrest, htables⟩ := List.forall₂_cons_left_iff.mp hall
  rw [List.forall₂_nil_left_iff.mp hrest] at htables
  exact ⟨t, htables, hdeclares⟩

/-- **The keys of all definitions.** Each definition that the dialect has leads to a table of the
declared schema. Its keys are constraints of that table, unless flags stand for them. -/
theorem exists_mem_tables_of_build {declared : TableDef} (h : build d policy definitions = .ok s)
    (hdeclared : declared ∈ definitions) (hskip : declared.isSkippedIn d = false) :
    ∃ t ∈ s.tables, t.qualifiedName = declared.nameIn d ∧
      ∀ k ∈ declared.keys, ¬ k.IsFlag t.name → k ∈ t.constraints := by
  obtain ⟨t, ht, hdeclares⟩ := exists_of_forall₂_left (forall₂_declares_of_build h)
    (mem_kept_iff.mpr ⟨hdeclared, hskip⟩)
  exact ⟨t, ht, hdeclares.qualifiedName, fun k hk hflag =>
    hdeclares.mem_constraints_iff.mpr ⟨TableDef.mem_constraintsIn_of_mem_keys d hk, hflag⟩⟩

/-- **The constraints of all tables of a declared schema** never fold. -/
theorem neverFolds_of_build (h : build d policy definitions = .ok s) :
    ∀ t ∈ s.tables, ∀ k ∈ t.constraints, Table.NeverFolds t.name k := by
  intro t ht k hk
  obtain ⟨declared, -, hdeclares⟩ := exists_of_forall₂_right (forall₂_declares_of_build h) ht
  exact hdeclares.neverFolds hk

/-- **The tables of a declared schema** name only their own columns in constraints and indices. -/
theorem usesOwnColumns_of_build (h : build d policy definitions = .ok s) :
    ∀ t ∈ s.tables, t.UsesOwnColumns := by
  intro t ht
  obtain ⟨declared, -, hdeclares⟩ := exists_of_forall₂_right (forall₂_declares_of_build h) ht
  exact hdeclares.usesOwnColumns

end DeclaredSchema

end AdditiveSchema
