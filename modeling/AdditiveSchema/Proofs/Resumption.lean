import AdditiveSchema.Proofs.Convergence

/-!
# Interrupted plans

A plan may be cut off after any of its actions. There is another plan for the catalog that is left
behind, and it makes up for what was cut off as far as that is still lacking. A change of an
existing table is, unless the first part of the plan happened to settle it, and so is a table that
was not created. A foreign key of a table that was created without it is not: when tables are
compared, foreign keys do not count, so the key is lost.

## Main definitions

* `Catalog.SameItems` : catalogs with the same columns, constraints and indices.

## Main results

* `Table.sameItems_extend_iff` : changes of which some may be missing.
* `Table.sameItems_leavingOut_iff` : foreign keys that are left out are missed.
* `reconcile_resumes_iff` : when nothing is lost.
-/

namespace AdditiveSchema

/-! ### Tables and catalogs with the same items -/

namespace Table

/-- The tables have the same columns, constraints and indices, in any order. -/
structure SameItems (g h : Table) : Prop where
  columns : g.columns.Perm h.columns
  constraints : g.constraints.Perm h.constraints
  indices : g.indices.Perm h.indices

theorem SameItems.refl (g : Table) : g.SameItems g :=
  ⟨.refl _, .refl _, .refl _⟩

/-- Each change adds one item. -/
theorem length_filterMap_items {as : List Action} (h : ∀ a ∈ as, a.isChange = true) :
    (as.filterMap Action.column?).length + (as.filterMap Action.constraint?).length +
      (as.filterMap Action.index?).length = as.length := by
  induction as with
  | nil => rfl
  | cons a as ih =>
    have ih := ih fun b hb => h b (List.mem_cons_of_mem a hb)
    cases a with
    | createColumn | createConstraint | createIndex =>
      simp only [List.filterMap_cons, List.length_cons, Action.column?, Action.constraint?,
        Action.index?]
      omega
    | createTable | addForeignKey => cases h _ List.mem_cons_self

/-- **Some of the changes** have the effect of all of them only if none is missing. -/
theorem sameItems_extend_iff {g : Table} {as bs : List Action}
    (has : ∀ a ∈ as, a.isChange = true) {p : Action → Bool} (h : bs.Perm (as.filter p)) :
    (g.extend bs).SameItems (g.extend as) ↔ ∀ a ∈ as, p a = true := by
  constructor
  · rintro ⟨hcolumns, hconstraints, hindices⟩
    have hbs : ∀ b ∈ bs, b.isChange = true := fun b hb =>
      has b (List.mem_of_mem_filter (h.mem_iff.mp hb))
    have hlength : bs.length = as.length := by
      rw [← length_filterMap_items hbs, ← length_filterMap_items has,
        ((List.perm_append_left_iff _).mp hcolumns).length_eq,
        ((List.perm_append_left_iff _).mp hconstraints).length_eq,
        ((List.perm_append_left_iff _).mp hindices).length_eq]
    exact List.length_filter_eq_length_iff.mp (h.length_eq.symm.trans hlength)
  · intro hall
    rw [List.filter_eq_self.mpr hall] at h
    exact ⟨(h.filterMap _).append_left _, (h.filterMap _).append_left _,
      (h.filterMap _).append_left _⟩

/-- **Foreign keys that are left out are missed.** -/
theorem sameItems_leavingOut_iff {t : Table} (hcolumns : (t.columns.map (·.name)).Nodup)
    {deferred : List Deferral} (hdeferred : ∀ d ∈ deferred, d.IsDeclaredOn t) :
    (t.leavingOut deferred).SameItems t ↔ deferred = [] := by
  constructor
  · intro hsame
    refine List.eq_nil_iff_forall_not_mem.mpr fun d hd => ?_
    obtain ⟨htable, c, hc, hname, hfk⟩ := hdeferred d hd
    obtain ⟨c', hc', heq⟩ := List.mem_map.mp (hsame.columns.mem_iff.mpr hc)
    have hname' : c'.name = c.name := by
      rw [← heq, Column.name_leavingOut]
    obtain rfl := List.inj_on_of_nodup_map hcolumns hc' hc hname'
    have hcovers := Deferral.covers_iff.mpr ⟨d, hd, htable, hname.symm⟩
    rw [Column.leavingOut, if_pos hcovers] at heq
    rw [← heq] at hfk
    cases hfk
  · rintro rfl
    rw [leavingOut_nil]
    exact .refl t

/-- A new table lacks nothing but foreign keys. -/
theorem creatable_leavingOut {d : Dialect} {t : Table}
    (hconstraints : (t.constraints.map (·.name)).Nodup) (deferred : List Deferral) :
    creatable d ((t.accepted d).leavingOut deferred) t = [] :=
  creatable_restore (isReduct_leavingOut deferred (t.accepted d)) hconstraints []

end Table

/-- The catalogs have the same tables, each with the same columns, constraints and indices. -/
def Catalog.SameItems (c c' : Catalog) : Prop :=
  ∀ n, Option.Rel Table.SameItems (c.table? n) (c'.table? n)

namespace Reconcile

variable {s : DeclaredSchema} {c : Catalog} {detectDrift : Bool} {created : List Table}
  {deferred : List Deferral}

/-! ### The next plan -/

/-- What is lacking after some actions was lacking before. -/
theorem newTables_applyAll_subset (h : Admissible s c) {as : List Action}
    (has : ∀ a ∈ as, a.IsNormal c.defaultSchema) :
    newTables s (Action.applyAll c as) ⊆ newTables s c := by
  refine List.map_subset _ fun t ht => ?_
  rw [Catalog.defaultSchema_applyAll] at ht
  obtain ⟨hmem, hnone⟩ := List.mem_filter.mp ht
  rw [Option.isNone_iff_eq_none, Catalog.table?_applyAll h.normal has (h.resolve_name hmem)]
    at hnone
  exact List.mem_filter.mpr
    ⟨hmem, Option.isNone_iff_eq_none.mpr (Action.eq_none_of_actAll_eq_none hnone)⟩

/-- **There is a next plan** after any actions, if there was one before. -/
theorem exists_reconcile_applyAll (h : Admissible s c)
    (hcolumns : ∀ t ∈ s.tables, (t.columns.map (·.name)).Nodup)
    (horder : TableOrder.order (newTables s c) s.dialect.allowsForwardReferences =
      .ok (created, deferred))
    (hcreated : ∀ t ∈ created, (s.dialect.createTable t).isOk = true) {as : List Action}
    (has : ∀ a ∈ as, a.IsNormal c.defaultSchema) (detectDrift : Bool) :
    ∃ created' deferred',
      TableOrder.order (newTables s (Action.applyAll c as)) s.dialect.allowsForwardReferences =
        .ok (created', deferred') ∧
      reconcile (Action.applyAll c as).view s detectDrift =
        .ok (planOf s (Action.applyAll c as) detectDrift created' deferred') := by
  have hsubset := newTables_applyAll_subset h has
  have hlater := h.applyAll has
  obtain ⟨rank, hrank⟩ := TableOrder.exists_isRanked_of_order (nodup_newTables h.names)
    (nodup_columns_newTables hcolumns) horder
  obtain ⟨⟨created', deferred'⟩, horder'⟩ := TableOrder.exists_order_ok
    (nodup_newTables hlater.names) (hrank.of_subset hsubset) s.dialect.allowsForwardReferences
  refine ⟨created', deferred', horder', reconcile_eq_ok_iff.mpr
    ⟨fun t ht => hlater.isReadable ht, created', deferred', horder', ?_, rfl⟩⟩
  have hnew := (Dialect.isOk_createTable_of_order (nodup_newTables h.names) horder).mp hcreated
  exact (Dialect.isOk_createTable_of_order (nodup_newTables hlater.names) horder').mpr
    fun t ht => hnew t (hsubset ht)

/-! ### New tables -/

section Absent

theorem nodup_map_column_deferred {forward : Bool}
    (horder : TableOrder.order (newTables s c) forward = .ok (created, deferred))
    (n : QualifiedName) : ((deferred.filter (·.table == n)).map (·.column)).Nodup := by
  have hkeys : ((deferred.filter (·.table == n)).map fun d => (d.table, d.column)).Nodup :=
    (TableOrder.breakable_of_order horder).2.sublist (List.filter_sublist.map _)
  have hmap : (deferred.filter (·.table == n)).map (fun d => (d.table, d.column)) =
      ((deferred.filter (·.table == n)).map (·.column)).map (n, ·) := by
    rw [List.map_map]
    refine List.map_congr_left fun d hd => ?_
    rw [eq_of_beq (List.mem_filter.mp hd).2]
    rfl
  rw [hmap] at hkeys
  exact hkeys.of_map _

variable (h : Admissible s c)
  (horder : TableOrder.order (newTables s c) s.dialect.allowsForwardReferences =
    .ok (created, deferred))
  {t : Table} (ht : t ∈ c.absent (s.resolved c.defaultSchema))

include h horder ht

theorem isDeclaredOn_of_mem_deferred :
    ∀ d ∈ deferred.filter (·.table == t.qualifiedName), d.IsDeclaredOn (t.accepted s.dialect) := by
  intro d hd
  obtain ⟨hd, hname⟩ := List.mem_filter.mp hd
  obtain ⟨t', ht', hname', col, hcol, hcolumn, hfk, -⟩ := deferral_of_order horder hd
  obtain rfl := List.inj_on_of_nodup_map h.names (List.mem_of_mem_filter ht')
    (List.mem_of_mem_filter ht) (hname'.trans (eq_of_beq hname))
  exact ⟨eq_of_beq hname, col, hcol, hcolumn, hfk⟩

variable (hcolumns : ∀ t ∈ s.tables, (t.columns.map (·.name)).Nodup)

include hcolumns

/-- **A new table** is created without its deferred foreign keys. -/
theorem leavingOut_mem_created :
    (t.accepted s.dialect).leavingOut (deferred.filter (·.table == t.qualifiedName)) ∈
      created := by
  obtain ⟨us, hus, rfl⟩ := TableOrder.exists_perm_leavingOut_of_order (nodup_newTables h.names)
    (nodup_columns_newTables hcolumns) horder
  refine List.mem_map.mpr ⟨t.accepted s.dialect, hus.mem_iff.mpr (List.mem_map_of_mem ht), ?_⟩
  exact (Table.leavingOut_filter deferred (t.accepted s.dialect)).symm

/-- **A new table after the first part of a plan** is still lacking, or it is there without the
foreign keys that the second part adds. -/
theorem table?_applyAll_of_absent {pre post : List Action}
    (hactions : (planOf s c detectDrift created deferred).actions = pre ++ post) :
    ((Action.applyAll c pre).table? t.qualifiedName = none ∧
      post.filter (·.table == t.qualifiedName) ≠ [] ∧
      ∀ a ∈ post.filter (·.table == t.qualifiedName), a.isChange = false) ∨
    ∃ es, (∀ d ∈ es, Deferral.IsDeclaredOn d (t.accepted s.dialect)) ∧
      (Action.applyAll c pre).table? t.qualifiedName =
        some ((t.accepted s.dialect).leavingOut es) ∧
      post.filter (·.table == t.qualifiedName) = es.map Deferral.action := by
  have hmem := leavingOut_mem_created h horder ht hcolumns
  have hdeclared := isDeclaredOn_of_mem_deferred h horder ht
  rcases table?_applyAll_of_mem_created h horder hactions hmem with
    ⟨hnone, hpost⟩ | ⟨ds, es, hdeferred, htable, hpost⟩
  · have hpost : post.filter (·.table == t.qualifiedName) = _ := hpost
    refine Or.inl ⟨hnone, by rw [hpost]; exact List.cons_ne_nil _ _, fun a ha => ?_⟩
    rcases List.mem_cons.mp (hpost ▸ ha) with rfl | ha
    · rfl
    · obtain ⟨d, -, rfl⟩ := List.mem_map.mp ha
      rfl
  · have hdeferred : deferred.filter (·.table == t.qualifiedName) = ds ++ es := hdeferred
    have hkeys := nodup_map_column_deferred horder t.qualifiedName
    rw [hdeferred] at hdeclared hkeys htable
    rw [Table.restore_leavingOut
      (nodup_columns_newTables hcolumns _ (List.mem_map_of_mem ht)) hkeys
      fun d hd => hdeclared d (List.mem_append_left es hd)] at htable
    exact Or.inr ⟨es, fun d hd => hdeclared d (List.mem_append_right ds hd), htable, hpost⟩

/-- After a whole plan, a new table is there as it was declared. -/
theorem table?_applyAll_actions_of_absent (detectDrift : Bool) :
    (Action.applyAll c (planOf s c detectDrift created deferred).actions).table?
      t.qualifiedName = some (t.accepted s.dialect) := by
  have hactions := (List.append_nil (planOf s c detectDrift created deferred).actions).symm
  rcases table?_applyAll_of_absent h horder ht hcolumns hactions with
    ⟨-, hne, -⟩ | ⟨es, -, htable, hnil⟩
  · exact absurd rfl hne
  · obtain rfl := List.map_eq_nil_iff.mp hnil.symm
    rwa [Table.leavingOut_nil] at htable

end Absent

/-! ### Each table after the next plan -/

section Interrupted

variable {pre post : List Action} {left : Catalog} {created' : List Table}
  {deferred' : List Deferral} (h : Admissible s c)
  (hcolumns : ∀ t ∈ s.tables, (t.columns.map (·.name)).Nodup)
  (horder : TableOrder.order (newTables s c) s.dialect.allowsForwardReferences =
    .ok (created, deferred))
  (hactions : (planOf s c detectDrift created deferred).actions = pre ++ post)
  (hleft : left = Action.applyAll c pre)
  (horder' : TableOrder.order (newTables s left) s.dialect.allowsForwardReferences =
    .ok (created', deferred'))

include h horder hactions hleft horder'

/-- An existing table gets what the first part left lacking, which is all of the second part
unless the first part settled some of it. -/
theorem rel_table?_of_table? {t g : Table} (ht : t ∈ s.resolved c.defaultSchema)
    (hg : c.table? t.qualifiedName = some g) :
    Option.Rel Table.SameItems
      ((Action.applyAll left (planOf s left detectDrift created' deferred').actions).table?
        t.qualifiedName)
      ((Action.applyAll c (pre ++ post)).table? t.qualifiedName) ↔
    ∀ a ∈ post.filter (·.table == t.qualifiedName), left.Lacks a := by
  subst hleft
  have hlater := h.applyAll (isNormal_of_mem_pre h horder hactions)
  have ht' : t ∈ s.resolved (Action.applyAll c pre).defaultSchema := by
    rwa [Catalog.defaultSchema_applyAll]
  obtain ⟨hpre, hperm⟩ := table?_applyAll_of_table? h horder hactions ht hg
  obtain ⟨hresumed, hperm'⟩ := table?_applyAll_of_table? hlater horder'
    (List.append_nil (planOf s _ detectDrift created' deferred').actions).symm ht' hpre
  obtain ⟨hwhole, -⟩ := table?_applyAll_of_table? h horder
    (hactions.trans (List.append_nil _).symm) ht hg
  have hname : t.qualifiedName = g.qualifiedName := by
    rw [Catalog.qualifiedName_of_table? hg, h.resolve_name ht]
  have hrest := Table.perm_filter_lacks_extend hname (h.nodup_constraints ht) hperm
  rw [List.filter_nil, List.append_nil] at hperm'
  have hchange : ∀ a ∈ post.filter (·.table == t.qualifiedName), a.isChange = true := fun a ha =>
    Table.isChange_of_mem_items
      (Table.mem_creatable.mp (hperm.mem_iff.mp (List.mem_append_right _ ha))).1
  rw [hresumed, hwhole, Option.rel_some_some, List.filter_append, Table.extend_append,
    Table.sameItems_extend_iff hchange (hperm'.trans hrest)]
  refine forall₂_congr fun a ha => ?_
  rw [decide_eq_true_iff, Catalog.lacks_iff_of_table?]
  rwa [eq_of_beq (List.mem_filter.mp ha).2]

include hcolumns

/-- A new table that was not created yet is made up for. One that was lacks the foreign keys of
the second part for good. -/
theorem rel_table?_of_absent {t : Table} (ht : t ∈ c.absent (s.resolved c.defaultSchema)) :
    Option.Rel Table.SameItems
      ((Action.applyAll left (planOf s left detectDrift created' deferred').actions).table?
        t.qualifiedName)
      ((Action.applyAll c (pre ++ post)).table? t.qualifiedName) ↔
    ∀ a ∈ post.filter (·.table == t.qualifiedName), left.Lacks a := by
  subst hleft
  have hlater := h.applyAll (isNormal_of_mem_pre h horder hactions)
  have hmem : t ∈ s.resolved (Action.applyAll c pre).defaultSchema := by
    rw [Catalog.defaultSchema_applyAll]
    exact List.mem_of_mem_filter ht
  have hwhole := table?_applyAll_actions_of_absent h horder ht hcolumns detectDrift
  rw [hactions] at hwhole
  rcases table?_applyAll_of_absent h horder ht hcolumns hactions with
    ⟨hnone, -, hchange⟩ | ⟨es, hdeclared, hpre, hpost⟩
  -- the next plan creates the table and adds its deferred keys, perhaps other ones
  · have habsent : t ∈ (Action.applyAll c pre).absent
        (s.resolved (Action.applyAll c pre).defaultSchema) :=
      List.mem_filter.mpr ⟨hmem, Option.isNone_iff_eq_none.mpr hnone⟩
    have hresumed := table?_applyAll_actions_of_absent hlater horder' habsent hcolumns detectDrift
    rw [hresumed, hwhole, Option.rel_some_some]
    refine iff_of_true (.refl _) fun a ha => ?_
    rw [Catalog.lacks_iff_of_table?_eq_none]
    · exact hchange a ha
    · rwa [eq_of_beq (List.mem_filter.mp ha).2]
  -- the next plan finds the table and has nothing for it
  · obtain ⟨hresumed, hperm⟩ := table?_applyAll_of_table? hlater horder'
      (List.append_nil (planOf s _ detectDrift created' deferred').actions).symm hmem hpre
    rw [Table.creatable_leavingOut (h.nodup_constraints (List.mem_of_mem_filter ht))] at hperm
    rw [(List.append_eq_nil_iff.mp hperm.eq_nil).1, Table.extend_nil] at hresumed
    rw [hresumed, hwhole, Option.rel_some_some, Table.sameItems_leavingOut_iff
      (nodup_columns_newTables hcolumns _ (List.mem_map_of_mem ht)) hdeclared, hpost]
    constructor
    · rintro rfl
      exact fun a ha => absurd ha List.not_mem_nil
    · refine fun hlacks => List.eq_nil_iff_forall_not_mem.mpr fun d hd => ?_
      have hkey := hlacks d.action (List.mem_map_of_mem hd)
      rw [Catalog.lacks_iff_of_table? (g := (t.accepted s.dialect).leavingOut es)] at hkey
      · exact hkey
      · rwa [show d.action.table = t.qualifiedName from (hdeclared d hd).1]

/-- **What the next plan makes up for,** table by table. -/
theorem rel_table?_iff {n : QualifiedName} (hn : n.resolve c.defaultSchema = n) :
    Option.Rel Table.SameItems
      ((Action.applyAll left (planOf s left detectDrift created' deferred').actions).table? n)
      ((Action.applyAll c (pre ++ post)).table? n) ↔
    ∀ a ∈ post.filter (·.table == n), left.Lacks a := by
  subst hleft
  by_cases hmem : n ∈ (s.resolved c.defaultSchema).map Table.qualifiedName
  · obtain ⟨t, ht, rfl⟩ := List.mem_map.mp hmem
    cases hg : c.table? t.qualifiedName with
    | some g => exact rel_table?_of_table? h horder hactions rfl horder' ht hg
    | none =>
      exact rel_table?_of_absent h hcolumns horder hactions rfl horder'
        (List.mem_filter.mpr ⟨ht, Option.isNone_iff_eq_none.mpr hg⟩)
  · have hlater := h.applyAll (isNormal_of_mem_pre h horder hactions)
    have hpost : post.filter (·.table == n) = [] := by
      have hfilter : (planOf s c detectDrift created deferred).actions.filter (·.table == n) = [] :=
        filter_table_of_notMem h.names horder hmem
      rw [hactions, List.filter_append] at hfilter
      exact (List.append_eq_nil_iff.mp hfilter).2
    have hresumed := table?_applyAll_of_notMem hlater horder'
      (List.append_nil (planOf s _ detectDrift created' deferred').actions).symm
      (by rwa [Catalog.defaultSchema_applyAll]) (by rwa [Catalog.defaultSchema_applyAll])
    rw [hresumed, table?_applyAll_of_notMem h horder hactions hn hmem,
      table?_applyAll_of_notMem h horder (hactions.trans (List.append_nil _).symm) hn hmem, hpost]
    refine iff_of_true ?_ fun a ha => absurd ha List.not_mem_nil
    cases c.table? n with
    | none => exact .none
    | some g => exact .some (.refl g)

/-- **When nothing is lost.** -/
theorem sameItems_iff :
    (Action.applyAll left (planOf s left detectDrift created' deferred').actions).SameItems
        (Action.applyAll c (pre ++ post)) ↔
      ∀ a ∈ post, left.Lacks a := by
  subst hleft
  constructor
  · intro hsame a ha
    have hnormal := isNormal_of_mem_actions h horder a (hactions ▸ List.mem_append_right pre ha)
    exact (rel_table?_iff h hcolumns horder hactions rfl horder' hnormal.resolve_table).mp
      (hsame a.table) a (List.mem_filter.mpr ⟨ha, beq_self_eq_true _⟩)
  · intro hlacks n
    have hrel := (rel_table?_iff h hcolumns horder hactions rfl horder'
      (QualifiedName.resolve_resolve_self c.defaultSchema n)).mpr
      fun a ha => hlacks a (List.mem_of_mem_filter ha)
    have hresolve (as : List Action) : (Action.applyAll c as).table? (n.resolve c.defaultSchema) =
        (Action.applyAll c as).table? n := by
      rw [← Catalog.defaultSchema_applyAll c as, Catalog.table?_resolve]
    rwa [hresolve, ← Action.applyAll_append, hresolve, Action.applyAll_append] at hrel

end Interrupted

end Reconcile

open Reconcile

/-- **When the next plan loses nothing.** Under the conditions under which plans converge, and if
the columns of each declared table have different names, there is another plan after any first
part of a plan. It leads to the same columns, constraints and indices as the whole first plan if
and only if all of the second part is still lacking. -/
theorem reconcile_resumes_iff {d : Dialect} {policy : ModifierPolicy}
    {definitions : List TableDef} {s : DeclaredSchema}
    (hbuild : DeclaredSchema.build d policy definitions = .ok s) {defaultSchema : String}
    {tables : List Table} {got : Catalog} (hgot : got = Catalog.ofTables defaultSchema tables)
    (hown : ∀ g ∈ got.tables, g.ConstrainsOwnColumns)
    (hnames : ((s.resolved defaultSchema).map Table.qualifiedName).Nodup)
    (hcolumns : ∀ t ∈ s.tables, (t.columns.map (·.name)).Nodup)
    (hconstraints : ∀ t ∈ s.tables, (t.constraints.map (·.name)).Nodup)
    {detectDrift : Bool} {p : Plan} (h : reconcile got.view s detectDrift = .ok p)
    {pre post : List Action} (hactions : p.actions = pre ++ post) :
    ∃ q, reconcile (Action.applyAll got pre).view s detectDrift = .ok q ∧
      ((Action.applyAll (Action.applyAll got pre) q.actions).SameItems
          (Action.applyAll got p.actions) ↔
        ∀ a ∈ post, (Action.applyAll got pre).Lacks a) := by
  subst hgot
  have hadmissible := admissible_of_build hbuild hown hnames hconstraints
  obtain ⟨-, created, deferred, horder, hcreated, rfl⟩ := reconcile_eq_ok_iff.mp h
  obtain ⟨created', deferred', horder', hresumed⟩ := exists_reconcile_applyAll hadmissible hcolumns
    horder hcreated (isNormal_of_mem_pre hadmissible horder hactions) detectDrift
  refine ⟨_, hresumed, ?_⟩
  rw [hactions]
  exact sameItems_iff hadmissible hcolumns horder hactions rfl horder'

/-- SQLite creates both tables with their references, so a plan that was cut off between them
loses nothing. -/
theorem reconcile_resumes_iff_sqlite :
    let s : DeclaredSchema := { staffAndStore with dialect := .sqlite }
    let c := Catalog.ofTables "main" []
    ∃ p, reconcile c.view s false = .ok p ∧ p.actions.length = 2 ∧
      ∃ q, reconcile (Action.applyAll c (p.actions.take 1)).view s false = .ok q ∧
        (Action.applyAll (Action.applyAll c (p.actions.take 1)) q.actions).SameItems
          (Action.applyAll c p.actions) := by
  intro s c
  have hbuild : DeclaredSchema.build .sqlite .warn staffAndStoreDefinitions = .ok s := by
    decide +kernel
  let storeOfStaff : Deferral :=
    ⟨⟨"main", "staff"⟩, "store_id", { table := ⟨"main", "store"⟩, column := "store_id" }⟩
  let tables := newTables s c
  have hplace : (TableOrder.graph tables []).place (TableOrder.graph tables []).nodes =
      .error [⟨"main", "staff"⟩, ⟨"main", "store"⟩] := by
    decide +kernel
  have hcircle : (TableOrder.graph tables []).sort =
      .error [⟨"main", "staff"⟩, ⟨"main", "store"⟩] :=
    DependencyGraph.sort_eq_error hplace (by decide +kernel) (by decide +kernel)
  have hbroken : (TableOrder.graph tables [storeOfStaff]).sort =
      .ok [⟨"main", "staff"⟩, ⟨"main", "store"⟩] := by
    decide +kernel
  have horder := TableOrder.order_of_circle hcircle (by decide +kernel) hbroken true
  have h : reconcile c.view s false = .ok
      { actions := (s.resolved "main").map .createTable, warnings := [] } :=
    reconcile_eq_ok_iff.mpr
      ⟨fun _ _ hlisted => Bool.noConfusion hlisted, _, _, horder, by decide, by decide +kernel⟩
  obtain ⟨q, hq, hsame⟩ := reconcile_resumes_iff hbuild rfl
    (fun _ hg => absurd hg List.not_mem_nil) (by decide) (by decide) (by decide) h
    (List.take_append_drop 1 _).symm
  exact ⟨_, h, rfl, q, hq, hsame.mpr (by decide)⟩

/-- Where the reference of a member of staff to a store is added last, a plan that was cut off
before that loses it: the next plan has nothing to do. -/
theorem reconcile_loses_storeOfStaff :
    let c := Catalog.ofTables "public" []
    let left := Action.applyAll c (staffAndStorePlan.actions.take 2)
    DeclaredSchema.build .postgres .warn staffAndStoreDefinitions = .ok staffAndStore ∧
      reconcile c.view staffAndStore false = .ok staffAndStorePlan ∧
      reconcile left.view staffAndStore false = .ok { actions := [], warnings := [] } ∧
      ¬ left.SameItems (Action.applyAll c staffAndStorePlan.actions) := by
  intro c left
  refine ⟨build_staffAndStore, reconcile_staffAndStore, by decide +kernel, fun hsame => ?_⟩
  let staff : Table := (staffAndStore.resolved "public").head (by decide)
  have hleft : left.table? staff.qualifiedName = some (staff.leavingOut [storeOfStaff]) := by
    decide +kernel
  have hwhole : (Action.applyAll c staffAndStorePlan.actions).table? staff.qualifiedName =
      some staff := by
    decide +kernel
  have hstaff := hsame staff.qualifiedName
  rw [hleft, hwhole, Option.rel_some_some] at hstaff
  exact List.cons_ne_nil _ _
    ((Table.sameItems_leavingOut_iff (by decide) (by decide)).mp hstaff)

end AdditiveSchema
