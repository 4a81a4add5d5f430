import AdditiveSchema.Proofs.DeclaredItems
import AdditiveSchema.Proofs.Progress

/-!
# Plans converge

After a plan was carried out, another comparison finds nothing to do. What an existing table
lacked was added to it, and what the dialect cannot create is refused again. A new table has all
its items from the start, since only foreign keys were left out of it, and these do not count when
tables are compared.

## Main results

* `Table.perm_filter_lacks_extend` : what an existing table still lacks after part of its changes.
* `Table.creatable_restore` : a new table lacks nothing that the dialect can create.
* `reconcile_converges` : after a plan there is nothing to do.
-/

namespace AdditiveSchema

/-! ### What a table still lacks -/

namespace Table

theorem filterMap_constraint?_items (t : Table) :
    t.items.filterMap Action.constraint? = t.constraints := by
  have hcolumns : (t.columns.map (Action.createColumn t.qualifiedName)).filterMap
      Action.constraint? = [] := by
    rw [List.filterMap_map]
    exact List.filterMap_eq_nil_iff.mpr fun _ _ => rfl
  have hconstraints : (t.constraints.map (Action.createConstraint t.qualifiedName)).filterMap
      Action.constraint? = t.constraints := by
    rw [List.filterMap_map]
    exact List.filterMap_some
  have hindices : (t.indices.map (Action.createIndex t.qualifiedName)).filterMap
      Action.constraint? = [] := by
    rw [List.filterMap_map]
    exact List.filterMap_eq_nil_iff.mpr fun _ _ => rfl
  rw [items, List.filterMap_append, List.filterMap_append, hcolumns, hconstraints, hindices,
    List.nil_append, List.append_nil]

variable {d : Dialect} {g t : Table} {as bs : List Action}

/-- **What an existing table still lacks** after the first part of its changes: of the rest, what
was not settled together with the first part. -/
theorem perm_filter_lacks_extend (hname : t.qualifiedName = g.qualifiedName)
    (hconstraints : (t.constraints.map (·.name)).Nodup)
    (h : (as ++ bs).Perm (creatable d g t)) :
    (creatable d (g.extend as) t).Perm (bs.filter ((g.extend as).Lacks ·)) := by
  have has : ∀ a ∈ as, g.Lacks a := fun a ha =>
    (mem_creatable.mp (h.mem_iff.mp (List.mem_append_left bs ha))).2.1
  have hnames : ((as.filterMap Action.constraint?).map (·.name)).Nodup := by
    have hsublist : ((creatable d g t).filterMap Action.constraint?).Sublist t.constraints := by
      rw [← filterMap_constraint?_items]
      exact (List.filter_sublist.trans List.filter_sublist).filterMap _
    have hall := hconstraints.sublist (hsublist.map (·.name))
    rw [← ((h.filterMap _).map _).nodup_iff] at hall
    exact hall.sublist (((List.sublist_append_left as bs).filterMap _).map _)
  -- what was added is settled, and nothing else became lacking
  have hsettled : as.filter ((g.extend as).Lacks ·) = [] := by
    refine List.filter_eq_nil_iff.mpr fun a ha => ?_
    have hitem := (mem_creatable.mp (h.mem_iff.mp (List.mem_append_left bs ha))).1
    rw [decide_eq_true_iff]
    exact not_lacks_extend hnames ha ((table_of_mem_items hitem).trans hname)
  have hfilter : creatable d (g.extend as) t =
      (creatable d g t).filter ((g.extend as).Lacks ·) := by
    simp only [creatable, List.filter_filter]
    refine List.filter_congr fun a _ => ?_
    rw [Bool.eq_iff_iff]
    simp only [Bool.and_eq_true, decide_eq_true_eq]
    constructor
    · rintro ⟨haccepted, hlacks⟩
      exact ⟨hlacks, haccepted, lacks_of_lacks_extend has hlacks⟩
    · rintro ⟨hlacks, haccepted, -⟩
      exact ⟨haccepted, hlacks⟩
  have hperm := h.filter ((g.extend as).Lacks ·)
  rw [List.filter_append, hsettled, List.nil_append] at hperm
  rw [hfilter]
  exact hperm.symm

theorem not_lacks_restore {u : Table} (hu : u.IsReduct (t.accepted d))
    (hconstraints : (t.constraints.map (·.name)).Nodup) (deferred : List Deferral) {b : Action}
    (hb : b ∈ t.items) (haccepted : b.isAccepted d = true) : ¬ (u.restore deferred).Lacks b := by
  obtain ⟨hrest, hcolumns⟩ := restore_rest u deferred
  rw [hu.map_name_columns] at hcolumns
  have hkeys : (u.restore deferred).constraints = t.constraints := by rw [hrest, hu.rest]; rfl
  have hindices : (u.restore deferred).indices = (t.accepted d).indices := by rw [hrest, hu.rest]
  have hschema : (u.restore deferred).schema = t.schema := by rw [hrest, hu.rest]; rfl
  simp only [items, List.mem_append, List.mem_map] at hb
  rcases hb with (⟨c, hc, rfl⟩ | ⟨k, hk, rfl⟩) | ⟨i, hi, rfl⟩
  · intro hlacks
    refine hlacks ?_
    rw [hcolumns]
    exact List.mem_map_of_mem (f := fun c : Column => c.name) hc
  · change ¬ (u.restore deferred).LacksConstraint k
    unfold LacksConstraint
    split
    · rename_i hkind
      refine not_not.mpr (Or.inr ⟨k, ?_, hkind⟩)
      rw [constraintsByName, hkeys]
      exact (Keyed.mem_ofList_of_nodup hconstraints).mpr hk
    · rintro ⟨hlacks, -⟩
      rw [hkeys] at hlacks
      exact hlacks (List.mem_map_of_mem hk)
  · rintro ⟨hlacks, -⟩
    rw [hindices, hschema] at hlacks
    refine hlacks (List.mem_map_of_mem (List.mem_filter.mpr ⟨hi, ?_⟩))
    rwa [Action.isAccepted, Action.statements, Except.isOk_map] at haccepted

/-- **A new table lacks nothing** that the dialect can create, whichever of its foreign keys were
added. -/
theorem creatable_restore {u : Table} (hu : u.IsReduct (t.accepted d))
    (hconstraints : (t.constraints.map (·.name)).Nodup) (deferred : List Deferral) :
    creatable d (u.restore deferred) t = [] := by
  refine List.eq_nil_iff_forall_not_mem.mpr fun b hb => ?_
  obtain ⟨hitem, hlacks, haccepted⟩ := mem_creatable.mp hb
  exact not_lacks_restore hu hconstraints deferred hitem haccepted hlacks

end Table

namespace Reconcile

variable {s : DeclaredSchema} {c : Catalog} {detectDrift : Bool} {created : List Table}
  {deferred : List Deferral} {pre post : List Action}

/-! ### Tables after part of a plan -/

section

variable (h : Admissible s c)
  (horder : TableOrder.order (newTables s c) s.dialect.allowsForwardReferences =
    .ok (created, deferred))
  (hactions : (planOf s c detectDrift created deferred).actions = pre ++ post)

include h horder hactions

theorem isNormal_of_mem_pre : ∀ a ∈ pre, a.IsNormal c.defaultSchema :=
  fun a ha => isNormal_of_mem_actions h horder a (hactions ▸ List.mem_append_left post ha)

/-- **An existing table** after the first part of a plan has the changes of that part. -/
theorem table?_applyAll_of_table? {t g : Table} (ht : t ∈ s.resolved c.defaultSchema)
    (hg : c.table? t.qualifiedName = some g) :
    (Action.applyAll c pre).table? t.qualifiedName =
        some (g.extend (pre.filter (·.table == t.qualifiedName))) ∧
      (pre.filter (·.table == t.qualifiedName) ++ post.filter (·.table == t.qualifiedName)).Perm
        (Table.creatable s.dialect g t) := by
  have hperm : ((planOf s c detectDrift created deferred).actions.filter
      (·.table == t.qualifiedName)).Perm _ := filter_table_of_table? h.names horder ht hg
  rw [hactions, List.filter_append] at hperm
  refine ⟨?_, hperm⟩
  rw [Catalog.table?_applyAll h.normal (isNormal_of_mem_pre h horder hactions) (h.resolve_name ht),
    hg]
  refine Table.actAll_eq_extend (fun a ha => ?_) g
  exact Table.isChange_of_mem_items
    (Table.mem_creatable.mp (hperm.mem_iff.mp (List.mem_append_left _ ha))).1

/-- **A new table** after the first part of a plan is still lacking, or it is there and lacks the
foreign keys that the second part adds. -/
theorem table?_applyAll_of_mem_created {u : Table} (hu : u ∈ created) :
    ((Action.applyAll c pre).table? u.qualifiedName = none ∧
      post.filter (·.table == u.qualifiedName) = .createTable u ::
        (deferred.filter (·.table == u.qualifiedName)).map Deferral.action) ∨
    ∃ ds es, deferred.filter (·.table == u.qualifiedName) = ds ++ es ∧
      (Action.applyAll c pre).table? u.qualifiedName = some (u.restore ds) ∧
      post.filter (·.table == u.qualifiedName) = es.map Deferral.action := by
  obtain ⟨t, ht, hut⟩ := exists_isReduct_of_mem_created h.names horder hu
  have hname : u.qualifiedName = t.qualifiedName := hut.qualifiedName_eq
  have hresolve := h.resolve_name (List.mem_of_mem_filter ht)
  rw [← hname] at hresolve
  have hfilter : (planOf s c detectDrift created deferred).actions.filter
      (·.table == u.qualifiedName) = _ := filter_table_of_mem_created h.names horder hu
  rw [hactions, List.filter_append] at hfilter
  rw [Catalog.table?_applyAll h.normal (isNormal_of_mem_pre h horder hactions) hresolve,
    (table_of_mem_created h.names horder hu).1]
  cases hpre : pre.filter (·.table == u.qualifiedName) with
  | nil =>
    rw [hpre, List.nil_append] at hfilter
    exact Or.inl ⟨rfl, hfilter⟩
  | cons a as =>
    rw [hpre, List.cons_append] at hfilter
    obtain ⟨rfl, hrest⟩ := List.cons_eq_cons.mp hfilter
    obtain ⟨ds, es, hdeferred, rfl, hes⟩ := List.map_eq_append_iff.mp hrest.symm
    exact Or.inr ⟨ds, es, hdeferred, Table.actAll_map_action ds u, hes.symm⟩

/-- A table that is not declared is the same after any part of a plan. -/
theorem table?_applyAll_of_notMem {n : QualifiedName} (hresolve : n.resolve c.defaultSchema = n)
    (hn : n ∉ (s.resolved c.defaultSchema).map Table.qualifiedName) :
    (Action.applyAll c pre).table? n = c.table? n := by
  have hfilter : (planOf s c detectDrift created deferred).actions.filter (·.table == n) = [] :=
    filter_table_of_notMem h.names horder hn
  rw [hactions, List.filter_append, List.append_eq_nil_iff] at hfilter
  rw [Catalog.table?_applyAll h.normal (isNormal_of_mem_pre h horder hactions) hresolve,
    hfilter.1]
  rfl

end

/-! ### Settled schemas -/

/-- After a plan, each declared table is there and lacks nothing that the dialect can create. -/
theorem exists_table?_applyAll (h : Admissible s c)
    (horder : TableOrder.order (newTables s c) s.dialect.allowsForwardReferences =
      .ok (created, deferred)) {t : Table} (ht : t ∈ s.resolved c.defaultSchema) :
    ∃ g, (Action.applyAll c (planOf s c detectDrift created deferred).actions).table?
        t.qualifiedName = some g ∧ Table.creatable s.dialect g t = [] := by
  have hactions := (List.append_nil (planOf s c detectDrift created deferred).actions).symm
  cases hg : c.table? t.qualifiedName with
  | some g =>
    obtain ⟨htable, hperm⟩ := table?_applyAll_of_table? h horder hactions ht hg
    have hname : t.qualifiedName = g.qualifiedName := by
      rw [Catalog.qualifiedName_of_table? hg, h.resolve_name ht]
    exact ⟨_, htable,
      (Table.perm_filter_lacks_extend hname (h.nodup_constraints ht) hperm).eq_nil⟩
  | none =>
    have habsent : t ∈ c.absent (s.resolved c.defaultSchema) :=
      List.mem_filter.mpr ⟨ht, by rw [hg]; rfl⟩
    obtain ⟨u, hu, hut⟩ := exists_mem_created h.names horder habsent
    have hname : u.qualifiedName = t.qualifiedName := hut.qualifiedName_eq
    rcases table?_applyAll_of_mem_created h horder hactions hu with
      ⟨-, hnil⟩ | ⟨ds, -, -, htable, -⟩
    · cases hnil
    · exact ⟨_, hname ▸ htable, Table.creatable_restore hut (h.nodup_constraints ht) ds⟩

/-- Where each declared table is there and lacks nothing that the dialect can create, there is
nothing to do. -/
theorem exists_reconcile_eq_nil (h : Admissible s c)
    (htables : ∀ t ∈ s.resolved c.defaultSchema, ∃ g, c.table? t.qualifiedName = some g ∧
      Table.creatable s.dialect g t = []) :
    ∃ q, reconcile c.view s detectDrift = .ok q ∧ q.actions = [] := by
  have habsent : c.absent (s.resolved c.defaultSchema) = [] := by
    refine List.filter_eq_nil_iff.mpr fun t ht => ?_
    obtain ⟨g, hg, -⟩ := htables t ht
    simp [hg]
  have hnew : newTables s c = [] := by rw [newTables, habsent, List.map_nil]
  have hchanges : changes s c = [] := by
    refine List.eq_nil_iff_forall_not_mem.mpr fun a ha => ?_
    obtain ⟨howed, haccepted⟩ := mem_changes_iff.mp ha
    obtain ⟨⟨t, ht, hat⟩, hlacks⟩ := Catalog.mem_owed_iff.mp howed
    obtain ⟨g, hg, hnil⟩ := htables t ht
    rw [← Table.table_of_mem_items hat] at hg
    rw [Catalog.lacks_iff_of_table? hg] at hlacks
    exact List.not_mem_nil (hnil ▸ Table.mem_creatable.mpr ⟨hat, hlacks, haccepted⟩)
  have hranked : TableOrder.IsRanked (fun _ => 0) (newTables s c) := by
    rw [hnew]
    exact fun t ht => absurd ht List.not_mem_nil
  obtain ⟨⟨created, deferred⟩, horder⟩ := TableOrder.exists_order_ok (nodup_newTables h.names)
    hranked s.dialect.allowsForwardReferences
  obtain ⟨hbreakable, -⟩ := TableOrder.breakable_of_order horder
  obtain ⟨us, hus, hreducts⟩ := TableOrder.exists_perm_of_order (nodup_newTables h.names) horder
  rw [hnew] at hus hbreakable
  obtain rfl := hus.eq_nil
  obtain rfl := List.forall₂_nil_right_iff.mp hreducts
  obtain rfl : deferred = [] := List.eq_nil_iff_forall_not_mem.mpr fun d hd => by
    obtain ⟨t, ht, -⟩ := hbreakable d hd
    cases ht
  refine ⟨_, reconcile_eq_ok_iff.mpr ⟨fun t ht => h.isReadable ht, _, _, horder,
    fun t ht => absurd ht List.not_mem_nil, rfl⟩, ?_⟩
  rw [planOf, hchanges]
  rfl

end Reconcile

open Reconcile

/-- A declared schema and a catalog built by insertions, as plans are made from them. -/
theorem Reconcile.admissible_of_build {d : Dialect} {policy : ModifierPolicy}
    {definitions : List TableDef} {s : DeclaredSchema}
    (hbuild : DeclaredSchema.build d policy definitions = .ok s) {defaultSchema : String}
    {tables : List Table}
    (hown : ∀ g ∈ (Catalog.ofTables defaultSchema tables).tables, g.ConstrainsOwnColumns)
    (hnames : ((s.resolved defaultSchema).map Table.qualifiedName).Nodup)
    (hconstraints : ∀ t ∈ s.tables, (t.constraints.map (·.name)).Nodup) :
    Admissible s (Catalog.ofTables defaultSchema tables) where
  normal := Catalog.isNormal_ofTables hown
  folded := DeclaredSchema.neverFolds_of_build hbuild
  names := by rw [Catalog.defaultSchema_ofTables]; exact hnames
  constraintNames := hconstraints

/-- **Plans converge.** Let a schema be declared whose tables have different names and whose
constraints have different names in each table, and let the constraints of each existing table
name only columns of it. After all actions of a plan there is nothing left to do. -/
theorem reconcile_converges {d : Dialect} {policy : ModifierPolicy} {definitions : List TableDef}
    {s : DeclaredSchema} (hbuild : DeclaredSchema.build d policy definitions = .ok s)
    {defaultSchema : String} {tables : List Table} {got : Catalog}
    (hgot : got = Catalog.ofTables defaultSchema tables)
    (hown : ∀ g ∈ got.tables, g.ConstrainsOwnColumns)
    (hnames : ((s.resolved defaultSchema).map Table.qualifiedName).Nodup)
    (hconstraints : ∀ t ∈ s.tables, (t.constraints.map (·.name)).Nodup)
    {detectDrift : Bool} {p : Plan} (h : reconcile got.view s detectDrift = .ok p) :
    ∃ q, reconcile (Action.applyAll got p.actions).view s detectDrift = .ok q ∧ q.actions = [] := by
  subst hgot
  have hadmissible := admissible_of_build hbuild hown hnames hconstraints
  obtain ⟨-, created, deferred, horder, -, rfl⟩ := reconcile_eq_ok_iff.mp h
  refine exists_reconcile_eq_nil
    (hadmissible.applyAll (isNormal_of_mem_actions hadmissible horder)) fun t ht => ?_
  rw [Catalog.defaultSchema_applyAll] at ht
  exact exists_table?_applyAll hadmissible horder ht

/-- The definitions of `staffAndStore`. -/
def staffAndStoreDefinitions : List TableDef := [
  { name := "staff"
    columns := [
      { field := "staff_id", kind := .number, directive := "primarykey" },
      { field := "store_id", kind := .number, directive := "references=store" }] },
  { name := "store"
    columns := [
      { field := "store_id", kind := .number, directive := "primarykey" },
      { field := "manager_staff_id", kind := .number,
        directive := "notnull references=staff" }] }]

theorem build_staffAndStore :
    DeclaredSchema.build .postgres .warn staffAndStoreDefinitions = .ok staffAndStore := by
  decide +kernel

/-- Two new tables and a reference that is added later are all found again. -/
theorem reconcile_converges_staffAndStore :
    let c := Catalog.ofTables "public" []
    ∃ p, reconcile c.view staffAndStore false = .ok p ∧ p.actions.length = 3 ∧
      ∃ q, reconcile (Action.applyAll c p.actions).view staffAndStore false = .ok q ∧
        q.actions = [] :=
  ⟨_, reconcile_staffAndStore, rfl, reconcile_converges build_staffAndStore rfl
    (fun _ hg => absurd hg List.not_mem_nil) (by decide) (by decide) reconcile_staffAndStore⟩

end AdditiveSchema
