import AdditiveSchema.Proofs.Exactness

/-!
# Foreign keys of new tables

A plan may create a table without some of its foreign keys, so that what is left leads to tables
that are there already. Each key that was left out is added at the end of the plan.

## Main definitions

* `Plan.KeepsForeignKeys` : no key leads to a table that is created later, and none is lost.

## Main results

* `reconcile_keepsForeignKeys` : plans keep foreign keys.
-/

namespace AdditiveSchema

open Reconcile

/-- The action creates the table of that name. -/
def Action.creates (name : QualifiedName) : Action → Bool
  | .createTable t => t.qualifiedName == name
  | _ => false

/-- The action adds a foreign key to the column. -/
def Action.addsKeyTo (table : QualifiedName) (column : String) : Action → Bool
  | .addForeignKey t c _ => (t, c) == (table, column)
  | _ => false

/-- The warning says that the foreign key of the column is deferred. -/
def Warning.defersKeyOf (table : QualifiedName) (column : String) : Warning → Bool
  | .deferredForeignKey t c _ => (t, c) == (table, column)
  | _ => false

/-- No foreign key of a new table leads to a table that is created later, and none is lost. -/
structure Plan.KeepsForeignKeys (p : Plan) (s : DeclaredSchema) (c : Catalog) : Prop where
  /-- A key that a new table has from the start leads to the table itself, to one that was created
  before, or to one that the plan does not create. -/
  leadsBack : s.dialect ≠ .sqlite → ∀ pre u post, p.actions = pre ++ .createTable u :: post →
    ∀ col ∈ u.columns, ∀ fk, col.references = some fk →
      fk.table = u.qualifiedName ∨ pre.any (Action.creates fk.table) = true ∨
        p.actions.any (Action.creates fk.table) = false
  /-- Each table that is lacking is created once. A declared key of it stays on its column, or else
  it may be null, is missing from the column, is added by one action and reported by one warning. -/
  kept : ∃ found, p.warnings = s.warnings ++ found ∧
    ∀ t ∈ c.absent (s.resolved c.defaultSchema), ∃ u,
      p.actions.filter (Action.creates t.qualifiedName) = [.createTable u] ∧
      ∀ col ∈ t.columns, ∀ fk, col.references = some fk →
        (u.column? col.name = some col ∧
          p.actions.filter (Action.addsKeyTo t.qualifiedName col.name) = []) ∨
        (u.column? col.name = some col.withoutReference ∧ col.notNull = false ∧
          p.actions.filter (Action.addsKeyTo t.qualifiedName col.name) =
            [.addForeignKey t.qualifiedName col.name fk] ∧
          found.filter (Warning.defersKeyOf t.qualifiedName col.name) =
            [.deferredForeignKey t.qualifiedName col.name fk])
  /-- A key that is added is declared on a table that is lacking and may be null. -/
  declared : ∀ table column fk, .addForeignKey table column fk ∈ p.actions →
    ∃ t ∈ c.absent (s.resolved c.defaultSchema), t.qualifiedName = table ∧
      ∃ col ∈ t.columns, col.name = column ∧ col.references = some fk ∧ col.notNull = false
  /-- Foreign keys are added after all else. -/
  last : p.actions.Pairwise fun a b => a.rank = 4 → b.rank = 4
  /-- In SQLite all keys stay on their columns. -/
  sqlite : s.dialect = .sqlite → ∀ a ∈ p.actions, a.rank ≠ 4

namespace Reconcile

variable {s : DeclaredSchema} {c : Catalog} {detectDrift : Bool} {created : List Table}
  {deferred : List Deferral}

theorem filter_changes {f : Action → Bool} (hf : ∀ a : Action, a.isChange = true → f a = false) :
    (changes s c).filter f = [] :=
  List.filter_eq_nil_iff.mpr fun a ha => by simp [hf a (isChange_of_mem_changes ha)]

theorem filter_creates_planOf (name : QualifiedName) :
    (planOf s c detectDrift created deferred).actions.filter (Action.creates name) =
      (created.filter (·.qualifiedName == name)).map .createTable := by
  have hchanges : (changes s c).filter (Action.creates name) = [] :=
    filter_changes fun a ha => by cases a <;> first | rfl | cases ha
  have hkeys : (deferred.map Deferral.action).filter (Action.creates name) = [] := by
    rw [List.filter_eq_nil_iff]
    intro a ha
    obtain ⟨d, -, rfl⟩ := List.mem_map.mp ha
    exact Bool.noConfusion
  rw [planOf, List.filter_append, List.filter_append, hchanges, hkeys, List.append_nil,
    List.append_nil, List.filter_map]
  rfl

theorem filter_addsKeyTo_planOf (table : QualifiedName) (column : String) :
    (planOf s c detectDrift created deferred).actions.filter (Action.addsKeyTo table column) =
      (deferred.filter fun d => (d.table, d.column) == (table, column)).map Deferral.action := by
  have htables : (created.map Action.createTable).filter (Action.addsKeyTo table column) = [] := by
    rw [List.filter_eq_nil_iff]
    intro a ha
    obtain ⟨t, -, rfl⟩ := List.mem_map.mp ha
    exact Bool.noConfusion
  have hchanges : (changes s c).filter (Action.addsKeyTo table column) = [] :=
    filter_changes fun a ha => by cases a <;> first | rfl | cases ha
  rw [planOf, List.filter_append, List.filter_append, hchanges, htables, List.nil_append,
    List.nil_append, List.filter_map]
  rfl

/-- The names of the columns of a new table are different. -/
theorem nodup_columns_newTables (hcolumns : ∀ t ∈ s.tables, (t.columns.map (·.name)).Nodup) :
    ∀ t ∈ newTables s c, (t.columns.map (·.name)).Nodup := by
  intro t ht
  obtain ⟨u, hu, rfl⟩ := List.mem_map.mp ht
  obtain ⟨v, hv, rfl⟩ := List.mem_map.mp (List.mem_of_mem_filter hu)
  exact (Table.map_name_columns_resolve c.defaultSchema v).symm ▸ hcolumns v hv

theorem filter_defersKeyOf_remarks (d : Dialect) (table : QualifiedName) (column : String)
    (tables : List Table) :
    (tables.flatMap (remarks d c detectDrift)).filter (Warning.defersKeyOf table column) = [] := by
  rw [List.filter_eq_nil_iff]
  intro w hw
  obtain ⟨t, -, hw⟩ := List.mem_flatMap.mp hw
  unfold remarks at hw
  split at hw
  · split at hw
    · obtain ⟨_, _, rfl⟩ := eq_schemaDrift_of_mem_drift hw
      exact Bool.noConfusion
    · cases hw
  · have := isUnsupported_of_mem_refusedIndices hw
    cases w with
    | unsupported => exact Bool.noConfusion
    | unknownModifier | schemaDrift | deferredForeignKey => cases this

theorem filter_defersKeyOf_refusedChanges (d : Dialect) (table : QualifiedName) (column : String)
    (changes : List Action) :
    (refusedChanges d changes).filter (Warning.defersKeyOf table column) = [] := by
  rw [List.filter_eq_nil_iff]
  intro w hw
  have := isUnsupported_of_mem_refusedChanges hw
  cases w with
  | unsupported => exact Bool.noConfusion
  | unknownModifier | schemaDrift | deferredForeignKey => cases this

/-- A plan creates its tables before it does anything else. -/
theorem exists_created_of_actions {pre post : List Action} {u : Table}
    (h : (planOf s c detectDrift created deferred).actions = pre ++ .createTable u :: post) :
    ∃ before after, created = before ++ u :: after ∧ pre = before.map .createTable := by
  have hrest : Action.createTable u ∉ changes s c ++ deferred.map Deferral.action := by
    intro hu
    rcases List.mem_append.mp hu with hu | hu
    · exact Bool.noConfusion (isChange_of_mem_changes hu)
    · obtain ⟨d, -, hd⟩ := List.mem_map.mp hu
      cases hd
  rw [planOf, List.append_assoc] at h
  rcases List.append_eq_append_iff.mp h with ⟨as, -, has⟩ | ⟨bs, hcreated, hbs⟩
  · exact absurd (has ▸ by simp) hrest
  · cases bs with
    | nil => exact absurd (hbs ▸ List.mem_cons_self) hrest
    | cons b bs =>
      obtain ⟨rfl, -⟩ := List.cons_eq_cons.mp hbs
      obtain ⟨before, after, rfl, hpre, hafter⟩ := List.map_eq_append_iff.mp hcreated
      obtain ⟨u', after, rfl, hu, -⟩ := List.map_eq_cons_iff.mp hafter
      cases hu
      exact ⟨before, after, rfl, hpre.symm⟩

/-- **A foreign key that a new table has from the start** leads to the table itself, to an earlier
one, or to one that the plan does not create, if the columns of the table have different names. -/
theorem leadsBack_of_nodup_columns
    (hnames : ((s.resolved c.defaultSchema).map Table.qualifiedName).Nodup)
    (horder : TableOrder.order (newTables s c) false = .ok (created, deferred))
    {pre post : List Action} {u : Table}
    (h : (planOf s c detectDrift created deferred).actions = pre ++ .createTable u :: post)
    (hcolumns : (u.columns.map (·.name)).Nodup) {col : Column} (hcol : col ∈ u.columns)
    {fk : ForeignKey} (hfk : col.references = some fk) :
    fk.table = u.qualifiedName ∨ pre.any (Action.creates fk.table) = true ∨
      (planOf s c detectDrift created deferred).actions.any (Action.creates fk.table) = false := by
  obtain ⟨before, after, hcreated, rfl⟩ := exists_created_of_actions h
  rcases TableOrder.references_of_order (nodup_newTables hnames) horder hcreated hcolumns hcol
    hfk with hself | hbefore | hnone
  · exact Or.inl hself
  · refine Or.inr (Or.inl ?_)
    obtain ⟨t, ht, hname⟩ := List.mem_map.mp hbefore
    exact List.any_eq_true.mpr ⟨_, List.mem_map_of_mem ht, beq_iff_eq.mpr hname⟩
  · refine Or.inr (Or.inr ?_)
    have hnil : created.filter (·.qualifiedName == fk.table) = [] :=
      List.filter_eq_nil_iff.mpr fun t ht hname =>
        hnone (List.mem_map.mpr ⟨t, ht, eq_of_beq hname⟩)
    have hactions : (planOf s c detectDrift created deferred).actions.filter
        (Action.creates fk.table) = [] := by
      rw [filter_creates_planOf, hnil, List.map_nil]
    exact List.any_eq_false.mpr (List.filter_eq_nil_iff.mp hactions)

theorem leadsBack_planOf
    (hnames : ((s.resolved c.defaultSchema).map Table.qualifiedName).Nodup)
    (hcolumns : ∀ t ∈ s.tables, (t.columns.map (·.name)).Nodup)
    (horder : TableOrder.order (newTables s c) false = .ok (created, deferred))
    {pre post : List Action} {u : Table}
    (h : (planOf s c detectDrift created deferred).actions = pre ++ .createTable u :: post)
    {col : Column} (hcol : col ∈ u.columns) {fk : ForeignKey} (hfk : col.references = some fk) :
    fk.table = u.qualifiedName ∨ pre.any (Action.creates fk.table) = true ∨
      (planOf s c detectDrift created deferred).actions.any (Action.creates fk.table) = false := by
  obtain ⟨before, after, hcreated, -⟩ := exists_created_of_actions h
  obtain ⟨us, hus, hreducts⟩ := TableOrder.exists_perm_of_order (nodup_newTables hnames) horder
  obtain ⟨t, ht, hreduct⟩ :=
    exists_of_forall₂_left hreducts (hcreated ▸ List.mem_append_right _ List.mem_cons_self)
  refine leadsBack_of_nodup_columns hnames horder h ?_ hcol hfk
  exact hreduct.map_name_columns ▸ nodup_columns_newTables hcolumns t (hus.mem_iff.mp ht)

/-- The foreign keys that a plan adds are the deferred ones. -/
theorem exists_deferral_of_mem_actions {table : QualifiedName} {column : String} {fk : ForeignKey}
    (h : .addForeignKey table column fk ∈ (planOf s c detectDrift created deferred).actions) :
    ∃ d ∈ deferred, Deferral.mk table column fk = d := by
  rw [planOf, List.mem_append, List.mem_append] at h
  rcases h with (h | h) | h
  · obtain ⟨_, -, ht⟩ := List.mem_map.mp h
    cases ht
  · exact Bool.noConfusion (isChange_of_mem_changes h)
  · obtain ⟨d, hd, heq⟩ := List.mem_map.mp h
    cases heq
    exact ⟨d, hd, rfl⟩

/-- The deferral of a column is one of its declared foreign key, which may be null. -/
theorem deferral_of_order
    (horder : TableOrder.order (newTables s c) s.dialect.allowsForwardReferences =
      .ok (created, deferred)) {d : Deferral} (hd : d ∈ deferred) :
    ∃ t ∈ c.absent (s.resolved c.defaultSchema), t.qualifiedName = d.table ∧
      ∃ col ∈ t.columns, col.name = d.column ∧ col.references = some d.foreignKey ∧
        col.notNull = false := by
  obtain ⟨u, hu, hbreakable⟩ := (TableOrder.breakable_of_order horder).1 d hd
  obtain ⟨t, ht, rfl⟩ := List.mem_map.mp hu
  obtain ⟨col, hcol, fk, hfk, hnull, -, rfl⟩ := Table.mem_breakable.mp hbreakable
  exact ⟨t, ht, rfl, col, hcol, rfl, hfk, hnull⟩

theorem kept_planOf (detectDrift : Bool)
    (hnames : ((s.resolved c.defaultSchema).map Table.qualifiedName).Nodup)
    (hcolumns : ∀ t ∈ s.tables, (t.columns.map (·.name)).Nodup)
    (horder : TableOrder.order (newTables s c) s.dialect.allowsForwardReferences =
      .ok (created, deferred))
    {t : Table} (ht : t ∈ c.absent (s.resolved c.defaultSchema)) :
    ∃ u, (planOf s c detectDrift created deferred).actions.filter (Action.creates t.qualifiedName) =
        [.createTable u] ∧
      ∀ col ∈ t.columns, ∀ fk, col.references = some fk →
        (u.column? col.name = some col ∧
          (planOf s c detectDrift created deferred).actions.filter
            (Action.addsKeyTo t.qualifiedName col.name) = []) ∨
        (u.column? col.name = some col.withoutReference ∧ col.notNull = false ∧
          (planOf s c detectDrift created deferred).actions.filter
            (Action.addsKeyTo t.qualifiedName col.name) =
            [.addForeignKey t.qualifiedName col.name fk] ∧
          (deferred.map Deferral.warning).filter
            (Warning.defersKeyOf t.qualifiedName col.name) =
            [.deferredForeignKey t.qualifiedName col.name fk]) := by
  have hnew := nodup_newTables hnames
  have hcols := nodup_columns_newTables (c := c) hcolumns
  obtain ⟨us, hus, rfl⟩ := TableOrder.exists_perm_leavingOut_of_order hnew hcols horder
  obtain ⟨hbreakable, hkeys⟩ := TableOrder.breakable_of_order horder
  have haccepted : t.accepted s.dialect ∈ newTables s c := List.mem_map_of_mem ht
  have hcol : ((t.accepted s.dialect).columns.map (·.name)).Nodup := hcols _ haccepted
  have hcreated : ((us.map (Table.leavingOut deferred)).map Table.qualifiedName).Nodup := by
    rw [List.map_map]
    exact (hus.map Table.qualifiedName).nodup_iff.mpr hnew
  refine ⟨(t.accepted s.dialect).leavingOut deferred, ?_, fun col hmem fk hfk => ?_⟩
  · have hmem := List.mem_map_of_mem (f := Table.leavingOut deferred) (hus.mem_iff.mpr haccepted)
    rw [filter_creates_planOf]
    exact congrArg _ (filter_key_eq_singleton hcreated hmem)
  have hcolumn : ((t.accepted s.dialect).leavingOut deferred).column? col.name =
      some (col.leavingOut deferred t.qualifiedName) := by
    have hname := (Table.map_name_columns_leavingOut deferred (t.accepted s.dialect)).symm ▸ hcol
    have hfind := find?_key_eq_some hname
      (List.mem_map_of_mem (f := Column.leavingOut deferred t.qualifiedName) hmem)
    rwa [Column.name_leavingOut] at hfind
  rw [hcolumn, filter_addsKeyTo_planOf, List.filter_map]
  cases hcovers : Deferral.covers deferred t.qualifiedName col.name with
  | false =>
    refine Or.inl ⟨by rw [Column.leavingOut, hcovers]; rfl, ?_⟩
    rw [List.map_eq_nil_iff, List.filter_eq_nil_iff]
    intro d hd hkey
    have := Deferral.covers_iff.mpr ⟨d, hd, Prod.mk.inj (eq_of_beq hkey)⟩
    rw [hcovers] at this
    cases this
  | true =>
    obtain ⟨d, hd, htable, hname⟩ := Deferral.covers_iff.mp hcovers
    obtain ⟨t', ht', htable', col', hcol', hname', hfk', hnull⟩ := deferral_of_order horder hd
    have hsublist : (c.absent (s.resolved c.defaultSchema)).Sublist (s.resolved c.defaultSchema) :=
      List.filter_sublist
    obtain rfl := List.inj_on_of_nodup_map hnames (hsublist.subset ht') (hsublist.subset ht)
      (htable'.trans htable)
    obtain rfl := List.inj_on_of_nodup_map hcol hcol' hmem (hname'.trans hname)
    obtain rfl := Option.some.inj (hfk'.symm.trans hfk)
    have hfilter := filter_key_eq_singleton hkeys hd
    rw [htable, hname] at hfilter
    refine Or.inr ⟨by rw [Column.leavingOut, hcovers]; rfl, hnull, ?_, ?_⟩
    · rw [hfilter, List.map_singleton, Deferral.action, htable, hname]
    · rw [← htable, ← hname]
      exact (congrArg (List.map Deferral.warning) (filter_key_eq_singleton hkeys hd)).trans rfl

end Reconcile

/-- **Plans keep foreign keys,** if the names of the declared tables and those of the columns of
each are different. -/
theorem reconcile_keepsForeignKeys {s : DeclaredSchema} {c : Catalog} {detectDrift : Bool}
    {p : Plan} (hnames : ((s.resolved c.defaultSchema).map Table.qualifiedName).Nodup)
    (hcolumns : ∀ t ∈ s.tables, (t.columns.map (·.name)).Nodup)
    (h : reconcile c.view s detectDrift = .ok p) : p.KeepsForeignKeys s c := by
  obtain ⟨-, created, deferred, horder, -, rfl⟩ := reconcile_eq_ok_iff.mp h
  refine ⟨?_, ?_, ?_, ?_, ?_⟩
  · intro hd pre u post hactions col hcol fk hfk
    have hforward : s.dialect.allowsForwardReferences = false := by
      simpa [Dialect.allowsForwardReferences] using hd
    rw [hforward] at horder
    exact leadsBack_planOf hnames hcolumns horder hactions hcol hfk
  · refine ⟨(s.resolved c.defaultSchema).flatMap (remarks s.dialect c detectDrift) ++
      refusedChanges s.dialect (ChangeOrder.order (c.owed (s.resolved c.defaultSchema))) ++
      deferred.map Deferral.warning, by simp only [planOf, List.append_assoc], fun t ht => ?_⟩
    obtain ⟨u, hu, hkept⟩ := kept_planOf detectDrift hnames hcolumns horder ht
    refine ⟨u, hu, fun col hcol fk hfk => ?_⟩
    rw [List.filter_append, List.filter_append, filter_defersKeyOf_remarks,
      filter_defersKeyOf_refusedChanges]
    exact hkept col hcol fk hfk
  · intro table column fk hfk
    obtain ⟨d, hd, heq⟩ := exists_deferral_of_mem_actions hfk
    cases heq
    exact deferral_of_order horder hd
  · exact pairwise_rank_planOf.imp fun {a b} hab ha => Nat.le_antisymm b.rank_le_four (by omega)
  · intro hd a ha hrank
    rw [hd] at horder
    obtain rfl := TableOrder.deferred_eq_nil_of_order horder
    cases a with
    | addForeignKey table column fk =>
      obtain ⟨d, hd, -⟩ := exists_deferral_of_mem_actions ha
      cases hd
    | createTable | createColumn | createConstraint | createIndex => cases hrank

/-- A member of staff may belong to a store, and every store has a manager. -/
def staffAndStore : DeclaredSchema where
  dialect := .postgres
  tables := [
    { name := "staff"
      columns := [
        { name := "staff_id", columnType := "INT", kind := some .number, notNull := true,
          primaryKey := true },
        { name := "store_id", columnType := "INT", kind := some .number,
          references := some { table := { name := "store" }, column := "store_id" } }] },
    { name := "store"
      columns := [
        { name := "store_id", columnType := "INT", kind := some .number, notNull := true,
          primaryKey := true },
        { name := "manager_staff_id", columnType := "INT", kind := some .number, notNull := true,
          references := some { table := { name := "staff" }, column := "staff_id" } }] }]

/-- The reference that is deferred when both tables are new. -/
def storeOfStaff : Deferral where
  table := ⟨"public", "staff"⟩
  column := "store_id"
  foreignKey := { table := ⟨"public", "store"⟩, column := "store_id" }

/-- Both tables are created, and then the deferred reference is added. -/
def staffAndStorePlan : Plan where
  actions := (staffAndStore.resolved "public").map (.createTable <| ·.leavingOut [storeOfStaff]) ++
    [storeOfStaff.action]
  warnings := [storeOfStaff.warning]

theorem reconcile_staffAndStore :
    reconcile (Catalog.view { defaultSchema := "public" }) staffAndStore false =
      .ok staffAndStorePlan := by
  let tables := newTables staffAndStore { defaultSchema := "public" }
  have hplace : (TableOrder.graph tables []).place (TableOrder.graph tables []).nodes =
      .error [⟨"public", "staff"⟩, ⟨"public", "store"⟩] := by
    decide +kernel
  have hcircle : (TableOrder.graph tables []).sort =
      .error [⟨"public", "staff"⟩, ⟨"public", "store"⟩] :=
    DependencyGraph.sort_eq_error hplace (by decide +kernel) (by decide +kernel)
  have hbroken : (TableOrder.graph tables [storeOfStaff]).sort =
      .ok [⟨"public", "staff"⟩, ⟨"public", "store"⟩] := by
    decide +kernel
  have horder := TableOrder.order_of_circle hcircle (by decide +kernel) hbroken false
  refine reconcile_eq_ok_iff.mpr ⟨fun _ _ h => Bool.noConfusion h, _, _, horder, by decide, ?_⟩
  decide +kernel

/-- The circle is broken at the store of a member of staff. -/
theorem reconcile_keepsForeignKeys_staffAndStore :
    let c : Catalog := { defaultSchema := "public" }
    ∃ p, reconcile c.view staffAndStore false = .ok p ∧
      p.actions.map Action.message = ["create table public.staff", "create table public.store",
        "add foreign key public.staff.store_id -> public.store.store_id"] ∧
      p.KeepsForeignKeys staffAndStore c :=
  ⟨_, reconcile_staffAndStore, rfl,
    reconcile_keepsForeignKeys (by decide) (by decide) reconcile_staffAndStore⟩

end AdditiveSchema
