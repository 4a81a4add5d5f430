import AdditiveSchema.Proofs.CyclicDependency

/-!
# The order of declarations

In which order the tables are declared says nothing about what is missing. Every round of sorting
finds the same tables in its way, because they are the largest set of tables that block one another,
and defers the same key, because keys are told apart by table and column. So the same tables are
reported, or the same keys are deferred and the plans hold the same actions.

## Main definitions

* `DeclaredSchema.IsRearranged` : two schemas declare the same tables in different orders.
* `Plan.IsRearranged` : two plans hold the same actions and add foreign keys in the same order.
* `SameOutcome` : there are plans for both of two schemas that say the same, or for neither.

## Main results

* `TableOrder.order_perm` : arranging the same tables in another order.
* `reconcile_declarationOrder` : declaring the same tables in another order.
-/

namespace AdditiveSchema

open Relation (ReflTransGen)

/-! ### The least deferral -/

namespace Deferral

instance : Std.TransCmp order :=
  inferInstanceAs (Std.TransCmp (compareLex (compareOn table) (compareOn column)))

/-- Deferrals that are told apart by neither table nor column are ordered alike. -/
theorem eq_of_order_eq {a b : Deferral} (h : order a b = .eq) :
    a.table = b.table ∧ a.column = b.column := by
  have h : (compare a.table b.table).then (compare a.column b.column) = .eq := h
  rw [Ordering.then_eq_eq] at h
  exact ⟨Std.LawfulEqOrd.eq_of_compare h.1, Std.LawfulEqOrd.eq_of_compare h.2⟩

theorem isLE_of_least? {as : List Deferral} {a b : Deferral} (h : least? as = some a)
    (hb : b ∈ as) : (order a b).isLE = true := by
  induction as generalizing a with
  | nil => cases hb
  | cons c cs ih =>
    cases hleast : least? cs with
    | none =>
      simp only [least?, hleast] at h
      cases h
      rw [least?_eq_none_iff.mp hleast, List.mem_singleton] at hb
      exact hb ▸ Std.ReflCmp.isLE_rfl
    | some m =>
      simp only [least?, hleast] at h
      split at h <;> rename_i hlt <;> cases h
      · rcases List.mem_cons.mp hb with rfl | hb
        · rw [hlt]
          rfl
        · exact ih hleast hb
      · rcases List.mem_cons.mp hb with rfl | hb
        · exact Std.ReflCmp.isLE_rfl
        · have hle := Std.OrientedCmp.isLE_of_isGE (Ordering.ne_lt_iff_isGE.mp hlt)
          exact Std.TransCmp.isLE_trans hle (ih hleast hb)

/-- Among deferrals of different columns, which one is the least does not hinge on their order. -/
theorem least?_congr {as bs : List Deferral} (hmem : ∀ d, d ∈ as ↔ d ∈ bs)
    (hsame : ∀ a ∈ as, ∀ b ∈ as, a.table = b.table → a.column = b.column → a = b) :
    least? as = least? bs := by
  cases ha : least? as with
  | none =>
    have hnil : bs = [] := by
      rw [List.eq_nil_iff_forall_not_mem]
      intro d hd
      rw [← hmem, least?_eq_none_iff.mp ha] at hd
      exact List.not_mem_nil hd
    rw [hnil, least?]
  | some a =>
    have hmem_a := least?_mem ha
    cases hb : least? bs with
    | none =>
      rw [hmem, least?_eq_none_iff.mp hb] at hmem_a
      exact absurd hmem_a List.not_mem_nil
    | some b =>
      have hmem_b := (hmem b).mpr (least?_mem hb)
      have hab := Std.OrientedCmp.isLE_antisymm (isLE_of_least? ha hmem_b)
        (isLE_of_least? hb ((hmem a).mp hmem_a))
      obtain ⟨htable, hcolumn⟩ := eq_of_order_eq hab
      rw [hsame a hmem_a b hmem_b htable hcolumn]

end Deferral

/-! ### Sorting the same tables in another order -/

namespace TableOrder

variable {tables tables' : List Table}

/-- A deferral of breakable keys is told apart by table and column. -/
theorem eq_of_mem_breakable (hnames : (tables.map Table.qualifiedName).Nodup)
    (hcolumns : ∀ t ∈ tables, (t.columns.map (·.name)).Nodup) {d e : Deferral}
    (hd : d ∈ tables.flatMap Table.breakable) (he : e ∈ tables.flatMap Table.breakable)
    (htable : d.table = e.table) (hcolumn : d.column = e.column) : d = e := by
  obtain ⟨t, ht, hd⟩ := List.mem_flatMap.mp hd
  obtain ⟨u, hu, he⟩ := List.mem_flatMap.mp he
  obtain ⟨c, hc, fk, hfk, -, -, rfl⟩ := Table.mem_breakable.mp hd
  obtain ⟨c', hc', fk', hfk', -, -, rfl⟩ := Table.mem_breakable.mp he
  obtain rfl := List.inj_on_of_nodup_map hnames ht hu htable
  obtain rfl := List.inj_on_of_nodup_map (hcolumns t ht) hc hc' hcolumn
  cases hfk.symm.trans hfk'
  rfl

/-- The same tables in another order can be sorted, too, or the same tables are in the way. -/
theorem sort_graph_perm (hperm : tables'.Perm tables)
    (hnames : (tables.map Table.qualifiedName).Nodup) (deferred : List Deferral) :
    (∃ sorted sorted', (graph tables deferred).sort = .ok sorted ∧
      (graph tables' deferred).sort = .ok sorted') ∨
      ∃ members, (graph tables deferred).sort = .error members ∧
        (graph tables' deferred).sort = .error members := by
  have hmap := hperm.map Table.qualifiedName
  have hnames' := hmap.nodup_iff.mpr hnames
  refine DependencyGraph.sort_congr (nodup_nodes_graph tables deferred) ?_ ?_
  · rwa [nodes_graph hnames, nodes_graph hnames']
  · funext x y
    rw [Bool.eq_iff_iff, dependsOn_graph hnames', dependsOn_graph hnames, hmap.mem_iff]
    simp only [hperm.mem_iff]

theorem mem_openKeys_perm (hperm : tables'.Perm tables) {deferred : List Deferral} {d : Deferral} :
    d ∈ openKeys tables deferred ↔ d ∈ openKeys tables' deferred :=
  ((hperm.flatMap_right Table.breakable).filter _).mem_iff.symm

/-- A round defers the same key, in whichever order the tables are. -/
theorem Round.perm (hperm : tables'.Perm tables) (hnames : (tables.map Table.qualifiedName).Nodup)
    (hcolumns : ∀ t ∈ tables, (t.columns.map (·.name)).Nodup) {deferred next : List Deferral}
    (h : Round tables deferred next) : Round tables' deferred next := by
  obtain ⟨hsort, hleast⟩ := h
  rename_i members d
  have hsort' : (graph tables' deferred).sort = .error members := by
    rcases sort_graph_perm hperm hnames deferred with ⟨_, _, hok, -⟩ | ⟨_, herror, herror'⟩
    · cases hsort.symm.trans hok
    · cases hsort.symm.trans herror
      exact herror'
  refine .defer hsort' (hleast ▸ (Deferral.least?_congr (fun e => ?_) fun a ha b hb => ?_).symm)
  · rw [List.mem_filter, List.mem_filter, mem_openKeys_perm hperm]
  · exact eq_of_mem_breakable hnames hcolumns
      (List.mem_of_mem_filter (List.mem_of_mem_filter ha))
      (List.mem_of_mem_filter (List.mem_of_mem_filter hb))

theorem rightUnique_round (tables : List Table) : Relator.RightUnique (Round tables) := by
  rintro deferred _ _ ⟨hsort, hleast⟩ ⟨hsort', hleast'⟩
  cases hsort.symm.trans hsort'
  cases hleast.symm.trans hleast'
  rfl

/-- The rounds can only end in one way. -/
theorem eq_of_rounds {last last' : List Deferral}
    (h : ReflTransGen (Round tables) [] last) (hlast : ∀ next, ¬ Round tables last next)
    (h' : ReflTransGen (Round tables) [] last') (hlast' : ∀ next, ¬ Round tables last' next) :
    last = last' := by
  rcases ReflTransGen.total_of_right_unique (rightUnique_round tables) h h' with h | h
  · rcases h.cases_head with heq | ⟨next, hround, -⟩
    · exact heq
    · exact absurd hround (hlast next)
  · rcases h.cases_head with heq | ⟨next, hround, -⟩
    · exact heq.symm
    · exact absurd hround (hlast' next)

/-- **Breaking cycles defers the same keys,** or the same tables are in the way, in whichever order
the tables are. -/
theorem breakCycles_perm (hperm : tables'.Perm tables)
    (hnames : (tables.map Table.qualifiedName).Nodup)
    (hcolumns : ∀ t ∈ tables, (t.columns.map (·.name)).Nodup) :
    (∃ sorted sorted' all,
      breakCycles tables [] (tables.flatMap Table.breakable) = .ok (sorted, all) ∧
      breakCycles tables' [] (tables'.flatMap Table.breakable) = .ok (sorted', all)) ∨
    ∃ members, breakCycles tables [] (tables.flatMap Table.breakable) = .error members ∧
      breakCycles tables' [] (tables'.flatMap Table.breakable) = .error members := by
  have hnames' := (hperm.map Table.qualifiedName).nodup_iff.mpr hnames
  have hcolumns' : ∀ t ∈ tables', (t.columns.map (·.name)).Nodup :=
    fun t ht => hcolumns t (hperm.mem_iff.mp ht)
  obtain ⟨last, hrounds, hlast, hresult⟩ := (terminates tables).result
  obtain ⟨last', hrounds', hlast', hresult'⟩ := (terminates tables').result
  obtain rfl : last = last' := by
    have hrounds : ReflTransGen (Round tables') [] last :=
      ReflTransGen.mono (fun _ _ => Round.perm hperm hnames hcolumns) _ _ hrounds
    refine eq_of_rounds hrounds ?_ hrounds' hlast'
    exact fun next hround => hlast next (hround.perm hperm.symm hnames' hcolumns')
  rw [hresult, hresult']
  rcases sort_graph_perm hperm hnames last with ⟨sorted, sorted', h, h'⟩ | ⟨members, h, h'⟩
  · exact Or.inl ⟨sorted, sorted', last, by rw [h]; rfl, by rw [h']; rfl⟩
  · exact Or.inr ⟨members, by rw [h]; rfl, by rw [h']; rfl⟩

/-- **Arranging the same tables in another order.** Either the same tables are in the way, or the
same keys are deferred and the same tables are created. -/
theorem order_perm (hperm : tables'.Perm tables) (hnames : (tables.map Table.qualifiedName).Nodup)
    (hcolumns : ∀ t ∈ tables, (t.columns.map (·.name)).Nodup) (forward : Bool) :
    (∃ arranged arranged' deferred, order tables forward = .ok (arranged, deferred) ∧
      order tables' forward = .ok (arranged', deferred) ∧ arranged'.Perm arranged) ∨
    ∃ members, order tables forward = .error members ∧ order tables' forward = .error members := by
  have hnames' := (hperm.map Table.qualifiedName).nodup_iff.mpr hnames
  have hcolumns' : ∀ t ∈ tables', (t.columns.map (·.name)).Nodup :=
    fun t ht => hcolumns t (hperm.mem_iff.mp ht)
  rcases breakCycles_perm hperm hnames hcolumns with
    ⟨sorted, sorted', all, h, h'⟩ | ⟨members, h, h'⟩
  · obtain ⟨arranged, arranged', deferred, horder, horder'⟩ :
        ∃ arranged arranged' deferred, order tables forward = .ok (arranged, deferred) ∧
          order tables' forward = .ok (arranged', deferred) := by
      simp only [order, h, h']
      cases forward
      · exact ⟨_, _, _, rfl, rfl⟩
      · exact ⟨_, _, _, rfl, rfl⟩
    obtain ⟨us, hus, rfl⟩ := exists_perm_leavingOut_of_order hnames hcolumns horder
    obtain ⟨us', hus', rfl⟩ := exists_perm_leavingOut_of_order hnames' hcolumns' horder'
    exact Or.inl ⟨_, _, deferred, horder, horder',
      ((hus'.trans hperm).trans hus.symm).map (Table.leavingOut deferred)⟩
  · exact Or.inr ⟨members, by simp only [order, h]; rfl, by simp only [order, h']; rfl⟩

end TableOrder

/-! ### The plans -/

/-- Both schemas declare the same tables for the same dialect, in different orders. -/
structure DeclaredSchema.IsRearranged (s' s : DeclaredSchema) : Prop where
  dialect : s'.dialect = s.dialect
  tables : s'.tables.Perm s.tables

/-- The foreign keys that the plan adds to tables, in order. -/
def Plan.addedKeys (p : Plan) : List Deferral :=
  p.actions.filterMap fun
    | .addForeignKey table column fk => some ⟨table, column, fk⟩
    | _ => none

/-- Both plans hold the same actions, add the same foreign keys in the same order, and have the same
warnings besides those of the schemas that they are made for. -/
structure Plan.IsRearranged (s' s : DeclaredSchema) (p' p : Plan) : Prop where
  actions : p'.actions.Perm p.actions
  addedKeys : p'.addedKeys = p.addedKeys
  warnings : ∃ found found', p.warnings = s.warnings ++ found ∧
    p'.warnings = s'.warnings ++ found' ∧ found'.Perm found

/-- There are plans for both schemas, which hold the same, or there is a plan for neither. If then a
cyclic dependency is reported, it is one between the same tables. -/
inductive SameOutcome (s' s : DeclaredSchema) :
    Except PlanError Plan → Except PlanError Plan → Prop
  | planned {p' p : Plan} (h : p'.IsRearranged s' s p) : SameOutcome s' s (.ok p') (.ok p)
  | failed {e' e : PlanError}
      (h : ∀ members, e' = .cyclicDependency members ↔ e = .cyclicDependency members) :
      SameOutcome s' s (.error e') (.error e)

namespace Reconcile

variable {s s' : DeclaredSchema} {c : Catalog} {detectDrift : Bool}

/-- Comparing tables is not what reports a cyclic dependency. -/
theorem examineAll_ne_cyclicDependency {v : View} {members : List QualifiedName} :
    examineAll s v detectDrift ≠ .error (.cyclicDependency members) := by
  intro h
  obtain ⟨t, -, found, h⟩ := Except.exists_of_foldlM_eq_error h
  rcases Except.bind_eq_error_iff.mp h with h | ⟨more, -, h⟩
  · rw [examine] at h
    split at h
    all_goals
      rcases Except.bind_eq_error_iff.mp h with h | ⟨_, -, h⟩
      · obtain ⟨_, -, heq⟩ := Except.mapError_eq_error_iff.mp h
        cases heq
      · cases h
  · cases h

/-- A cyclic dependency is only reported when the existing tables could be read. -/
theorem isReadable_of_cyclicDependency {members : List QualifiedName}
    (h : reconcile c.view s detectDrift = .error (.cyclicDependency members)) :
    ∀ t ∈ s.resolved c.defaultSchema, c.IsReadable t.qualifiedName := by
  rw [reconcile] at h
  rcases Except.bind_eq_error_iff.mp h with h | ⟨found, hfound, -⟩
  · exact absurd h examineAll_ne_cyclicDependency
  · exact (examineAll_eq_ok_iff.mp hfound).1

theorem resolved_perm (h : s'.IsRearranged s) (defaultSchema : String) :
    (s'.resolved defaultSchema).Perm (s.resolved defaultSchema) :=
  h.tables.map (Table.resolve defaultSchema)

theorem newTables_perm (h : s'.IsRearranged s) : (newTables s' c).Perm (newTables s c) := by
  rw [newTables, newTables, h.dialect]
  exact ((resolved_perm h c.defaultSchema).filter _).map _

theorem addedKeys_planOf (s : DeclaredSchema) (c : Catalog) (detectDrift : Bool)
    (created : List Table) (deferred : List Deferral) :
    (planOf s c detectDrift created deferred).addedKeys = deferred := by
  have hchanges : ∀ a ∈ changes s c, (match a with
      | .addForeignKey table column fk => some (⟨table, column, fk⟩ : Deferral)
      | _ => none) = none := by
    intro a ha
    have hchange := isChange_of_mem_changes ha
    cases a with
    | addForeignKey => cases hchange
    | createTable | createColumn | createConstraint | createIndex => rfl
  rw [Plan.addedKeys, planOf, List.filterMap_append, List.filterMap_append,
    List.filterMap_eq_nil_iff.mpr hchanges, List.filterMap_map, List.filterMap_map]
  have htables : (created.filterMap fun _ => (none : Option Deferral)) = [] :=
    List.filterMap_eq_nil_iff.mpr fun _ _ => rfl
  exact (congrArg (· ++ [] ++ _) htables).trans List.filterMap_some

theorem planOf_isRearranged (h : s'.IsRearranged s) (detectDrift : Bool)
    {created created' : List Table} (hcreated : created'.Perm created) (deferred : List Deferral) :
    (planOf s' c detectDrift created' deferred).IsRearranged s' s
      (planOf s c detectDrift created deferred) := by
  have hresolved := resolved_perm h c.defaultSchema
  have howed : (ChangeOrder.order (c.owed (s'.resolved c.defaultSchema))).Perm
      (ChangeOrder.order (c.owed (s.resolved c.defaultSchema))) :=
    ((ChangeOrder.perm_order _).trans ((hresolved.flatMap_right Table.items).filter _)).trans
      (ChangeOrder.perm_order _).symm
  constructor
  · rw [planOf, planOf, changes, changes, h.dialect]
    exact ((hcreated.map _).append (howed.filter _)).append_right _
  · rw [addedKeys_planOf, addedKeys_planOf]
  · simp only [planOf, List.append_assoc, h.dialect]
    exact ⟨_, _, rfl, rfl, (hresolved.flatMap_right _).append ((howed.filterMap _).append_right _)⟩

/-- **If there is a plan, there is one for the same tables in another order.** -/
theorem exists_reconcile_eq_ok_of_isRearranged (h : s'.IsRearranged s)
    (hnames : ((s.resolved c.defaultSchema).map Table.qualifiedName).Nodup)
    (hcolumns : ∀ t ∈ s.tables, (t.columns.map (·.name)).Nodup) {p : Plan}
    (hplan : reconcile c.view s detectDrift = .ok p) :
    ∃ p', reconcile c.view s' detectDrift = .ok p' ∧ p'.IsRearranged s' s p := by
  obtain ⟨hread, created, deferred, horder, hcreated, rfl⟩ := reconcile_eq_ok_iff.mp hplan
  have hread' : ∀ t ∈ s'.resolved c.defaultSchema, c.IsReadable t.qualifiedName :=
    fun t ht => hread t ((resolved_perm h c.defaultSchema).mem_iff.mp ht)
  rcases TableOrder.order_perm (newTables_perm h) (nodup_newTables hnames)
      (nodup_columns_newTables hcolumns) s.dialect.allowsForwardReferences with
    ⟨arranged, arranged', _, hok, hok', hperm⟩ | ⟨members, herror, -⟩
  · cases horder.symm.trans hok
    refine ⟨_, reconcile_eq_ok_iff.mpr ⟨hread', arranged', deferred, ?_, ?_, rfl⟩,
      planOf_isRearranged h detectDrift hperm deferred⟩
    · rwa [h.dialect]
    · rw [h.dialect]
      exact fun t ht => hcreated t (hperm.mem_iff.mp ht)
  · cases horder.symm.trans herror

/-- If a cyclic dependency is reported, it is reported for the same tables in another order. -/
theorem reconcile_eq_cyclicDependency_of_isRearranged (h : s'.IsRearranged s)
    (hnames : ((s.resolved c.defaultSchema).map Table.qualifiedName).Nodup)
    (hcolumns : ∀ t ∈ s.tables, (t.columns.map (·.name)).Nodup) {members : List QualifiedName}
    (hcyclic : reconcile c.view s detectDrift = .error (.cyclicDependency members)) :
    reconcile c.view s' detectDrift = .error (.cyclicDependency members) := by
  have hread := isReadable_of_cyclicDependency hcyclic
  have horder := (reconcile_eq_cyclicDependency_iff hread).mp hcyclic
  have hread' : ∀ t ∈ s'.resolved c.defaultSchema, c.IsReadable t.qualifiedName :=
    fun t ht => hread t ((resolved_perm h c.defaultSchema).mem_iff.mp ht)
  rw [reconcile_eq_cyclicDependency_iff hread', h.dialect]
  rcases TableOrder.order_perm (newTables_perm h) (nodup_newTables hnames)
      (nodup_columns_newTables hcolumns) s.dialect.allowsForwardReferences with
    ⟨_, _, _, hok, -, -⟩ | ⟨members', herror, herror'⟩
  · cases horder.symm.trans hok
  · cases horder.symm.trans herror
    exact herror'

end Reconcile

open Reconcile

/-- **Declaring the same tables in another order.** Let the declared tables have different names and
the columns of each declared table, too. Then there are plans for both orders or for neither. The
plans hold the same actions, add the same foreign keys in the same order, and have the same warnings
about what was found; where there is no plan, a cyclic dependency is reported for both orders or for
neither, and between the same tables. -/
theorem reconcile_declarationOrder {s s' : DeclaredSchema} (h : s'.IsRearranged s) {got : Catalog}
    (hnames : ((s.resolved got.defaultSchema).map Table.qualifiedName).Nodup)
    (hcolumns : ∀ t ∈ s.tables, (t.columns.map (·.name)).Nodup) (detectDrift : Bool) :
    SameOutcome s' s (reconcile got.view s' detectDrift) (reconcile got.view s detectDrift) := by
  have hback : s.IsRearranged s' := ⟨h.dialect.symm, h.tables.symm⟩
  have hnames' : ((s'.resolved got.defaultSchema).map Table.qualifiedName).Nodup :=
    ((resolved_perm h got.defaultSchema).map Table.qualifiedName).nodup_iff.mpr hnames
  have hcolumns' : ∀ t ∈ s'.tables, (t.columns.map (·.name)).Nodup :=
    fun t ht => hcolumns t (h.tables.mem_iff.mp ht)
  cases hplan : reconcile got.view s detectDrift with
  | ok p =>
    obtain ⟨p', hplan', hsame⟩ :=
      exists_reconcile_eq_ok_of_isRearranged h hnames hcolumns hplan
    rw [hplan']
    exact .planned hsame
  | error e =>
    cases hplan' : reconcile got.view s' detectDrift with
    | ok p' =>
      obtain ⟨p, hok, -⟩ :=
        exists_reconcile_eq_ok_of_isRearranged hback hnames' hcolumns' hplan'
      cases hplan.symm.trans hok
    | error e' =>
      refine .failed fun members => ⟨?_, ?_⟩
      · rintro rfl
        have hcyclic := reconcile_eq_cyclicDependency_of_isRearranged hback hnames' hcolumns' hplan'
        exact Except.error.inj (hplan.symm.trans hcyclic)
      · rintro rfl
        have hcyclic := reconcile_eq_cyclicDependency_of_isRearranged h hnames hcolumns hplan
        exact Except.error.inj (hplan'.symm.trans hcyclic)

/-- With stores declared before staff, it is still the store of a member of staff that is
deferred. -/
theorem reconcile_declarationOrder_storeAndStaff :
    let got : Catalog := { defaultSchema := "public" }
    let s : DeclaredSchema := { staffAndStore with tables := staffAndStore.tables.reverse }
    ∃ p, reconcile got.view s false = .ok p ∧
      p.IsRearranged s staffAndStore staffAndStorePlan := by
  intro got s
  have h : s.IsRearranged staffAndStore := ⟨rfl, List.reverse_perm _⟩
  have hsame : SameOutcome s staffAndStore (reconcile got.view s false)
      (reconcile got.view staffAndStore false) :=
    reconcile_declarationOrder h (by decide) (by decide) false
  rw [reconcile_staffAndStore] at hsame
  cases hplan : reconcile got.view s false with
  | ok p =>
    rw [hplan] at hsame
    cases hsame with
    | planned h => exact ⟨p, rfl, h⟩
  | error e =>
    rw [hplan] at hsame
    cases hsame

end AdditiveSchema
