import AdditiveSchema.Proofs.ForeignKeys
import AdditiveSchema.Proofs.Table.Extension

/-!
# Carrying out a plan

The actions of a plan fall apart by their tables. A table that exists gets what it lacks; a table
that is lacking is created and then gets the foreign keys that were left out, and after the last
of them it is just as it was declared. So after any part of a plan, what is there of each table is
known.

## Main definitions

* `Reconcile.Admissible` : catalogs and declared schemas whose plans can be followed by name.
* `Table.creatable` : the items that an existing table gets.
* `Deferral.IsDeclaredOn` : deferred foreign keys of a table.
* `Table.restore` : a table to which deferred foreign keys were added.

## Main results

* `Reconcile.isNormal_of_mem_actions` : the actions of a plan are in normal form.
* `Reconcile.filter_table_of_table?`, `Reconcile.filter_table_of_mem_created`,
  `Reconcile.filter_table_of_notMem` : the actions of a plan on one table.
* `Table.restore_leavingOut` : adding deferred foreign keys undoes leaving them out.
-/

namespace AdditiveSchema

/-! ### Tables of a declared schema -/

theorem Table.IsNormal.accepted {ds : String} {t : Table} (h : t.IsNormal ds) (d : Dialect) :
    (t.accepted d).IsNormal ds := by
  obtain ⟨-, hindices, hcolumns⟩ := resolve_eq_self_iff.mp h.resolve_eq
  exact h.of_parts rfl hcolumns h.neverFolds fun i hi => hindices i (List.mem_of_mem_filter hi)

theorem Table.IsNormal.of_isReduct {ds : String} {u t : Table} (h : t.IsNormal ds)
    (hu : u.IsReduct t) : u.IsNormal ds := by
  obtain ⟨-, hindices, hcolumns⟩ := resolve_eq_self_iff.mp h.resolve_eq
  refine h.of_parts hu.qualifiedName_eq (fun e he => ?_) (by rw [hu.rest]; exact h.neverFolds)
    (by rw [hu.rest]; exact hindices)
  obtain ⟨c, hc, hec⟩ := exists_of_forall₂_left hu.columns he
  rcases hec with rfl | rfl
  · exact hcolumns e hc
  · rfl

/-- What a table in normal form consists of is in normal form. -/
theorem Table.IsNormal.items {ds : String} {t : Table} (h : t.IsNormal ds) :
    ∀ a ∈ t.items, a.IsNormal ds := by
  obtain ⟨hname, hindices, hcolumns⟩ := resolve_eq_self_iff.mp h.resolve_eq
  intro a ha
  simp only [Table.items, List.mem_append, List.mem_map] at ha
  rcases ha with (⟨c, hc, rfl⟩ | ⟨k, hk, rfl⟩) | ⟨i, hi, rfl⟩
  · exact ⟨hname, hcolumns c hc⟩
  · exact ⟨hname, h.neverFolds k hk⟩
  · exact ⟨hname, hindices i hi⟩

namespace Reconcile

/-- The catalog is in normal form, no constraint of a declared table ever folds, and the names of
the declared tables and of the constraints of each are different. -/
structure Admissible (s : DeclaredSchema) (c : Catalog) : Prop where
  normal : c.IsNormal
  folded : ∀ t ∈ s.tables, ∀ k ∈ t.constraints, Table.NeverFolds t.name k
  names : ((s.resolved c.defaultSchema).map Table.qualifiedName).Nodup
  constraintNames : ∀ t ∈ s.tables, (t.constraints.map (·.name)).Nodup

namespace Admissible

variable {s : DeclaredSchema} {c : Catalog} {t : Table}

theorem isNormal (h : Admissible s c) (ht : t ∈ s.resolved c.defaultSchema) :
    t.IsNormal c.defaultSchema := by
  obtain ⟨u, hu, rfl⟩ := List.mem_map.mp ht
  exact ⟨Table.resolve_resolve c.defaultSchema u, h.folded u hu⟩

theorem resolve_name (h : Admissible s c) (ht : t ∈ s.resolved c.defaultSchema) :
    t.qualifiedName.resolve c.defaultSchema = t.qualifiedName :=
  (Table.resolve_eq_self_iff.mp (h.isNormal ht).resolve_eq).1

theorem nodup_constraints (h : Admissible s c) (ht : t ∈ s.resolved c.defaultSchema) :
    (t.constraints.map (·.name)).Nodup := by
  obtain ⟨u, hu, rfl⟩ := List.mem_map.mp ht
  exact h.constraintNames u hu

/-- Actions in normal form change nothing about this. -/
theorem applyAll (h : Admissible s c) {as : List Action}
    (has : ∀ a ∈ as, a.IsNormal c.defaultSchema) : Admissible s (Action.applyAll c as) where
  normal := h.normal.applyAll has
  folded := h.folded
  names := by rw [Catalog.defaultSchema_applyAll]; exact h.names
  constraintNames := h.constraintNames

/-- All listed tables can be found. -/
theorem isReadable (h : Admissible s c) (ht : t ∈ s.resolved c.defaultSchema) :
    c.IsReadable t.qualifiedName := by
  rw [Catalog.IsReadable, h.normal.contains_resolvedNames (h.resolve_name ht)]
  exact id

end Admissible

variable {s : DeclaredSchema} {c : Catalog} {detectDrift : Bool} {created : List Table}
  {deferred : List Deferral}

/-- A created table stems from one that is lacking. -/
theorem exists_isReduct_of_mem_created
    (hnames : ((s.resolved c.defaultSchema).map Table.qualifiedName).Nodup) {forward : Bool}
    (horder : TableOrder.order (newTables s c) forward = .ok (created, deferred)) {u : Table}
    (hu : u ∈ created) :
    ∃ t ∈ c.absent (s.resolved c.defaultSchema), u.IsReduct (t.accepted s.dialect) := by
  obtain ⟨tables, htables, hreducts⟩ := exists_perm_created hnames horder
  obtain ⟨t, ht, hut⟩ := exists_of_forall₂_left hreducts hu
  exact ⟨t, htables.mem_iff.mp ht, hut⟩

/-- A table that is lacking is among the created ones. -/
theorem exists_mem_created
    (hnames : ((s.resolved c.defaultSchema).map Table.qualifiedName).Nodup) {forward : Bool}
    (horder : TableOrder.order (newTables s c) forward = .ok (created, deferred)) {t : Table}
    (ht : t ∈ c.absent (s.resolved c.defaultSchema)) :
    ∃ u ∈ created, u.IsReduct (t.accepted s.dialect) := by
  obtain ⟨tables, htables, hreducts⟩ := exists_perm_created hnames horder
  exact exists_of_forall₂_right hreducts (htables.mem_iff.mpr ht)

/-- **The actions of a plan are in normal form.** -/
theorem isNormal_of_mem_actions (h : Admissible s c)
    (horder : TableOrder.order (newTables s c) s.dialect.allowsForwardReferences =
      .ok (created, deferred)) :
    ∀ a ∈ (planOf s c detectDrift created deferred).actions, a.IsNormal c.defaultSchema := by
  intro a ha
  rw [planOf, List.mem_append, List.mem_append] at ha
  rcases ha with (ha | ha) | ha
  · obtain ⟨u, hu, rfl⟩ := List.mem_map.mp ha
    obtain ⟨t, ht, hut⟩ := exists_isReduct_of_mem_created h.names horder hu
    exact ((h.isNormal (List.mem_of_mem_filter ht)).accepted s.dialect).of_isReduct hut
  · obtain ⟨⟨t, ht, hat⟩, -⟩ := Catalog.mem_owed_iff.mp (mem_changes_iff.mp ha).1
    exact (h.isNormal ht).items a hat
  · obtain ⟨d, hd, rfl⟩ := List.mem_map.mp ha
    obtain ⟨t, ht, hname, col, hcol, -, hfk, -⟩ := deferral_of_order horder hd
    have hmem : t ∈ s.resolved c.defaultSchema := List.mem_of_mem_filter ht
    obtain ⟨-, -, hcolumns⟩ := Table.resolve_eq_self_iff.mp (h.isNormal hmem).resolve_eq
    have hkey := Table.resolveReference_eq_self_iff.mp (hcolumns col hcol) _ hfk
    have hresolve := h.resolve_name hmem
    rw [hname] at hresolve
    have hschema : d.table.schema = t.schema := congrArg QualifiedName.schema hname.symm
    exact ⟨hresolve, by rw [hschema]; exact hkey⟩

end Reconcile

/-! ### The actions of a plan on one table -/

namespace Table

/-- The items of a declared table that an existing one lacks and the dialect can create. -/
def creatable (d : Dialect) (g t : Table) : List Action :=
  (t.items.filter (g.Lacks ·)).filter (Action.isAccepted d)

theorem mem_creatable {d : Dialect} {g t : Table} {a : Action} :
    a ∈ creatable d g t ↔ a ∈ t.items ∧ g.Lacks a ∧ a.isAccepted d = true := by
  simp only [creatable, List.mem_filter, decide_eq_true_eq, and_assoc]

end Table

namespace Reconcile

variable {s : DeclaredSchema} {c : Catalog} {detectDrift : Bool} {created : List Table}
  {deferred : List Deferral}

theorem filter_table_items {tables : List Table} (hnames : (tables.map Table.qualifiedName).Nodup)
    {t : Table} (ht : t ∈ tables) :
    (tables.flatMap Table.items).filter (·.table == t.qualifiedName) = t.items := by
  have hitems (u : Table) : u.items.filter (·.table == t.qualifiedName) =
      if u.qualifiedName == t.qualifiedName then u.items else [] := by
    split
    · rename_i hu
      refine List.filter_eq_self.mpr fun a ha => ?_
      rwa [Table.table_of_mem_items ha]
    · rename_i hu
      refine List.filter_eq_nil_iff.mpr fun a ha => ?_
      rwa [Table.table_of_mem_items ha]
  rw [List.filter_flatMap]
  simp only [hitems]
  induction tables with
  | nil => cases ht
  | cons u tables ih =>
    obtain ⟨hu, hrest⟩ := List.nodup_cons.mp hnames
    rw [List.flatMap_cons]
    rcases List.mem_cons.mp ht with rfl | ht
    · have hnil : tables.flatMap (fun u =>
          if u.qualifiedName == t.qualifiedName then u.items else []) = [] := by
        refine List.flatMap_eq_nil_iff.mpr fun v hv => if_neg fun hname => hu ?_
        exact eq_of_beq hname ▸ List.mem_map_of_mem hv
      rw [if_pos (beq_self_eq_true _), hnil, List.append_nil]
    · have hname : ¬ (u.qualifiedName == t.qualifiedName) = true := fun hname =>
        hu (eq_of_beq hname ▸ List.mem_map_of_mem ht)
      rw [if_neg hname, List.nil_append, ih hrest ht]

theorem table_of_mem_created
    (hnames : ((s.resolved c.defaultSchema).map Table.qualifiedName).Nodup) {forward : Bool}
    (horder : TableOrder.order (newTables s c) forward = .ok (created, deferred)) {u : Table}
    (hu : u ∈ created) :
    c.table? u.qualifiedName = none ∧
      u.qualifiedName ∈ (s.resolved c.defaultSchema).map Table.qualifiedName := by
  obtain ⟨t, ht, hut⟩ := exists_isReduct_of_mem_created hnames horder hu
  obtain ⟨hmem, hnone⟩ := List.mem_filter.mp ht
  rw [hut.qualifiedName_eq, Table.qualifiedName_accepted]
  exact ⟨Option.isNone_iff_eq_none.mp hnone, List.mem_map_of_mem hmem⟩

theorem table_of_mem_deferred
    (horder : TableOrder.order (newTables s c) s.dialect.allowsForwardReferences =
      .ok (created, deferred)) {d : Deferral} (hd : d ∈ deferred) :
    c.table? d.table = none ∧
      d.table ∈ (s.resolved c.defaultSchema).map Table.qualifiedName := by
  obtain ⟨t, ht, hname, -⟩ := deferral_of_order horder hd
  obtain ⟨hmem, hnone⟩ := List.mem_filter.mp ht
  rw [← hname]
  exact ⟨Option.isNone_iff_eq_none.mp hnone, List.mem_map_of_mem hmem⟩

theorem table_of_mem_changes {a : Action} (ha : a ∈ changes s c) :
    (∃ g, c.table? a.table = some g) ∧
      a.table ∈ (s.resolved c.defaultSchema).map Table.qualifiedName := by
  obtain ⟨⟨t, ht, hat⟩, hlacks⟩ := Catalog.mem_owed_iff.mp (mem_changes_iff.mp ha).1
  exact ⟨Catalog.exists_table?_of_lacks (isChange_of_mem_changes ha) hlacks,
    Table.table_of_mem_items hat ▸ List.mem_map_of_mem ht⟩

section

variable (hnames : ((s.resolved c.defaultSchema).map Table.qualifiedName).Nodup)
  (horder : TableOrder.order (newTables s c) s.dialect.allowsForwardReferences =
    .ok (created, deferred))

include hnames horder

/-- **An existing table** gets what it lacks and the dialect can create. -/
theorem filter_table_of_table? {t g : Table} (ht : t ∈ s.resolved c.defaultSchema)
    (hg : c.table? t.qualifiedName = some g) :
    ((planOf s c detectDrift created deferred).actions.filter
      (·.table == t.qualifiedName)).Perm (Table.creatable s.dialect g t) := by
  have hcreated : (created.map Action.createTable).filter (·.table == t.qualifiedName) = [] := by
    refine List.filter_eq_nil_iff.mpr fun a ha hname => ?_
    obtain ⟨u, hu, rfl⟩ := List.mem_map.mp ha
    have hnone := (table_of_mem_created hnames horder hu).1
    rw [show u.qualifiedName = t.qualifiedName from eq_of_beq hname, hg] at hnone
    cases hnone
  have hdeferred : (deferred.map Deferral.action).filter (·.table == t.qualifiedName) = [] := by
    refine List.filter_eq_nil_iff.mpr fun a ha hname => ?_
    obtain ⟨d, hd, rfl⟩ := List.mem_map.mp ha
    have hnone := (table_of_mem_deferred horder hd).1
    rw [show d.table = t.qualifiedName from eq_of_beq hname, hg] at hnone
    cases hnone
  have howed : (c.owed (s.resolved c.defaultSchema)).filter (·.table == t.qualifiedName) =
      t.items.filter (g.Lacks ·) := by
    rw [Catalog.owed, List.filter_comm, filter_table_items hnames ht]
    refine List.filter_congr fun a ha => decide_eq_decide.mpr (Catalog.lacks_iff_of_table? ?_)
    rwa [Table.table_of_mem_items ha]
  rw [planOf, List.filter_append, List.filter_append, hcreated, hdeferred, List.nil_append,
    List.append_nil, changes, List.filter_comm, Table.creatable, ← howed]
  exact ((ChangeOrder.perm_order _).filter _).filter _

/-- **A new table** is created and then gets its deferred foreign keys. -/
theorem filter_table_of_mem_created {u : Table} (hu : u ∈ created) :
    (planOf s c detectDrift created deferred).actions.filter (·.table == u.qualifiedName) =
      .createTable u ::
        (deferred.filter (·.table == u.qualifiedName)).map Deferral.action := by
  have hcreated : (created.map Action.createTable).filter (·.table == u.qualifiedName) =
      [.createTable u] := by
    rw [List.filter_map]
    exact congrArg _ (filter_key_eq_singleton (TableOrder.first_of_order horder).1 hu)
  have hchanges : (changes s c).filter (·.table == u.qualifiedName) = [] := by
    refine List.filter_eq_nil_iff.mpr fun a ha hname => ?_
    obtain ⟨g, hg⟩ := (table_of_mem_changes ha).1
    rw [eq_of_beq hname, (table_of_mem_created hnames horder hu).1] at hg
    cases hg
  rw [planOf, List.filter_append, List.filter_append, hcreated, hchanges, List.append_nil,
    List.filter_map]
  rfl

/-- A table that is not declared is left alone. -/
theorem filter_table_of_notMem {n : QualifiedName}
    (hn : n ∉ (s.resolved c.defaultSchema).map Table.qualifiedName) :
    (planOf s c detectDrift created deferred).actions.filter (·.table == n) = [] := by
  refine List.filter_eq_nil_iff.mpr fun a ha hname => hn (eq_of_beq hname ▸ ?_)
  rw [planOf, List.mem_append, List.mem_append] at ha
  rcases ha with (ha | ha) | ha
  · obtain ⟨u, hu, rfl⟩ := List.mem_map.mp ha
    exact (table_of_mem_created hnames horder hu).2
  · exact (table_of_mem_changes ha).2
  · obtain ⟨d, hd, rfl⟩ := List.mem_map.mp ha
    exact (table_of_mem_deferred horder hd).2

end

end Reconcile

/-! ### Deferred foreign keys -/

/-- The deferred foreign key is that of a column of the table. -/
def Deferral.IsDeclaredOn (d : Deferral) (t : Table) : Prop :=
  d.table = t.qualifiedName ∧ ∃ c ∈ t.columns, c.name = d.column ∧ c.references = some d.foreignKey

instance (d : Deferral) (t : Table) : Decidable (d.IsDeclaredOn t) :=
  inferInstanceAs (Decidable (_ ∧ _))

namespace Table

/-- The table with deferred foreign keys added. -/
def restore (t : Table) (deferred : List Deferral) : Table :=
  deferred.foldl (fun t d => t.modifyColumn d.column fun c =>
    { c with references := some d.foreignKey }) t

theorem actAll_map_action (deferred : List Deferral) (t : Table) :
    Action.actAll (deferred.map Deferral.action) (some t) = some (t.restore deferred) := by
  induction deferred generalizing t with
  | nil => rfl
  | cons d deferred ih => exact ih _

/-- Adding foreign keys changes nothing but columns, and keeps the names of these. -/
theorem restore_rest (t : Table) (deferred : List Deferral) :
    t.restore deferred = { t with columns := (t.restore deferred).columns } ∧
      (t.restore deferred).columns.map (·.name) = t.columns.map (·.name) := by
  induction deferred generalizing t with
  | nil => exact ⟨rfl, rfl⟩
  | cons d deferred ih =>
    obtain ⟨hrest, hnames⟩ := ih (t.modifyColumn d.column fun c =>
      { c with references := some d.foreignKey })
    refine ⟨hrest, hnames.trans ?_⟩
    exact map_modifyFirst (f := fun c : Column => { c with references := some d.foreignKey })
      (fun _ => rfl) _ _

/-- Adding one deferred foreign key undoes leaving it out. -/
theorem modifyColumn_leavingOut {t : Table} (hcolumns : (t.columns.map (·.name)).Nodup)
    {d : Deferral} {ds : List Deferral} (hd : d.column ∉ ds.map (·.column))
    (htable : d.table = t.qualifiedName) {c : Column} (hc : c ∈ t.columns)
    (hname : c.name = d.column) (hfk : c.references = some d.foreignKey) :
    ((t.leavingOut (d :: ds)).modifyColumn d.column fun c =>
      { c with references := some d.foreignKey }) = t.leavingOut ds := by
  have hnames : ((t.leavingOut (d :: ds)).columns.map (·.name)).Nodup := by
    rwa [map_name_columns_leavingOut]
  rw [modifyColumn, modifyFirst_eq_map hnames]
  simp only [leavingOut, List.map_map]
  refine congrArg (fun columns => { t with columns := columns }) ?_
  refine List.map_congr_left fun c' hc' => ?_
  rw [Function.comp_apply, Column.name_leavingOut]
  by_cases hname' : c'.name = d.column
  · obtain rfl := List.inj_on_of_nodup_map hcolumns hc hc' (hname.trans hname'.symm)
    have hcovers : Deferral.covers ds t.qualifiedName c.name = false := by
      rw [← Bool.not_eq_true, Deferral.covers_iff]
      rintro ⟨e, he, -, hcolumn⟩
      exact hd (List.mem_map.mpr ⟨e, he, hcolumn.trans hname⟩)
    rw [if_pos (beq_iff_eq.mpr hname'), Column.leavingOut, Column.leavingOut, hcovers,
      if_pos (Deferral.covers_iff.mpr ⟨d, List.mem_cons_self, htable, hname.symm⟩), ← hfk]
    rfl
  · have hcovers : Deferral.covers (d :: ds) t.qualifiedName c'.name =
        Deferral.covers ds t.qualifiedName c'.name := by
      simp [Deferral.covers, Ne.symm hname']
    rw [if_neg (by simpa using hname'), Column.leavingOut, hcovers, Column.leavingOut]

/-- **Adding deferred foreign keys undoes leaving them out.** -/
theorem restore_leavingOut {t : Table} (hcolumns : (t.columns.map (·.name)).Nodup)
    {as bs : List Deferral} (hkeys : ((as ++ bs).map (·.column)).Nodup)
    (has : ∀ d ∈ as, d.IsDeclaredOn t) :
    (t.leavingOut (as ++ bs)).restore as = t.leavingOut bs := by
  induction as with
  | nil => rfl
  | cons d as ih =>
    rw [List.cons_append, List.map_cons] at hkeys
    obtain ⟨hd, hkeys⟩ := List.nodup_cons.mp hkeys
    obtain ⟨htable, c, hc, hname, hfk⟩ := has d List.mem_cons_self
    rw [List.cons_append, restore, List.foldl_cons,
      modifyColumn_leavingOut hcolumns hd htable hc hname hfk]
    exact ih hkeys fun e he => has e (List.mem_cons_of_mem d he)

end Table

end AdditiveSchema
