import AdditiveSchema.Proofs.DeclarationOrder
import AdditiveSchema.Proofs.Dependency.Members
import AdditiveSchema.Proofs.ReferencedColumns

/-!
# Foreign keys that are deferred

As long as new tables reference one another in circles, the least key between the tables in the way
is deferred. With each key that is deferred fewer tables are in the way, so a key that is passed
over is never looked at again, and the keys are deferred in their order. This tells exactly which
keys are deferred: those that still lead from a table between circles to another one when all
deferred keys that come before them are taken away. A table between circles need not be on one. So
a key from one circle to another one, without any way back, may be deferred, though this breaks no
circle.

## Main definitions

* `Deferral.before` : the keys that come before another one.
* `Deferral.StandsBetween` : a key leads from a table between circles to another one.
* `TableOrder.TakenInOrder` : what the rounds of sorting keep up.
* `Plan.LeadsTo` : a created table leads to another one by a declared key.

## Main results

* `TableOrder.takenInOrder_of_rounds` : the keys that are deferred in any number of rounds.
* `TableOrder.mem_deferred_iff` : the keys that are deferred in the end.
* `reconcile_defersBetween_iff` : the keys that a plan adds, and when all of them are on circles.
-/

namespace AdditiveSchema

open Relation (ReflTransGen)

namespace Deferral

variable {R : QualifiedName → QualifiedName → Prop} {as bs : List Deferral} {d e : Deferral}

/-- Those of the deferrals that come before `d`. -/
def before (d : Deferral) (as : List Deferral) : List Deferral :=
  as.filter fun e => order e d = .lt

theorem mem_before : e ∈ before d as ↔ e ∈ as ∧ order e d = .lt := by
  rw [before, List.mem_filter, decide_eq_true_iff]

theorem before_subset (d : Deferral) (as : List Deferral) : before d as ⊆ as :=
  List.filter_subset_self _

theorem before_mono (d : Deferral) (hsub : as ⊆ bs) : before d as ⊆ before d bs := by
  intro e he
  obtain ⟨he, hlt⟩ := mem_before.mp he
  exact mem_before.mpr ⟨hsub he, hlt⟩

/-- Nothing is added before a deferral by one that does not come before it. -/
theorem before_concat_subset (as : List Deferral) (h : order e d ≠ .lt) :
    before d (as ++ [e]) ⊆ before d as := by
  intro f hf
  obtain ⟨hf, hlt⟩ := mem_before.mp hf
  refine mem_before.mpr ⟨(List.mem_append.mp hf).resolve_right fun hfe => h ?_, hlt⟩
  rwa [List.mem_singleton.mp hfe] at hlt

theorem order_self_ne_lt (d : Deferral) : order d d ≠ .lt := by
  have heq : order d d = .eq := Std.ReflCmp.compare_self
  rw [heq]
  exact nofun

/-- The foreign key leads from a table between circles to another one. -/
def StandsBetween (R : QualifiedName → QualifiedName → Prop) (d : Deferral) : Prop :=
  IsBetween R d.table ∧ IsBetween R d.foreignKey.table

theorem StandsBetween.mono {S : QualifiedName → QualifiedName → Prop} (hRS : ∀ a b, R a b → S a b)
    (h : d.StandsBetween R) : d.StandsBetween S :=
  ⟨h.1.mono hRS, h.2.mono hRS⟩

theorem covers_of_subset {table : QualifiedName} {column : String} (hsub : as ⊆ bs)
    (h : covers bs table column = false) : covers as table column = false := by
  rw [← Bool.not_eq_true, covers_iff] at h ⊢
  rintro ⟨d, hd, heq⟩
  exact h ⟨d, hsub hd, heq⟩

end Deferral

theorem Table.dependencies_subset {t : Table} {deferred deferred' : List Deferral}
    (hsub : deferred ⊆ deferred') : t.dependencies deferred' ⊆ t.dependencies deferred := by
  intro n hn
  obtain ⟨c, hc, fk, hfk, hcovers, hname⟩ := mem_dependencies.mp hn
  exact mem_dependencies.mpr ⟨c, hc, fk, hfk, Deferral.covers_of_subset hsub hcovers, hname⟩

namespace TableOrder

variable {tables : List Table} {deferred deferred' : List Deferral} {d : Deferral}

/-- One of the tables leads to another one by a key that is not deferred. -/
def LeadsTo (tables : List Table) (deferred : List Deferral) (a b : QualifiedName) : Prop :=
  (graph tables deferred).dependsOn a b = true

section Names

variable (hnames : (tables.map Table.qualifiedName).Nodup)

include hnames

theorem LeadsTo.of_subset (hsub : deferred ⊆ deferred') (a b : QualifiedName)
    (h : LeadsTo tables deferred' a b) : LeadsTo tables deferred a b := by
  obtain ⟨hne, hb, t, ht, hname, hdep⟩ := (dependsOn_graph hnames).mp h
  exact (dependsOn_graph hnames).mpr ⟨hne, hb, t, ht, hname, Table.dependencies_subset hsub hdep⟩

/-- What is in the way was in the way when fewer keys were deferred. -/
theorem standsBetween_of_subset (hsub : deferred ⊆ deferred')
    (h : d.StandsBetween (LeadsTo tables deferred')) :
    d.StandsBetween (LeadsTo tables deferred) :=
  h.mono (LeadsTo.of_subset hnames hsub)

theorem mem_nodes_of_leadsTo (a b : QualifiedName) (h : LeadsTo tables deferred a b) :
    a ∈ (graph tables deferred).nodes := by
  obtain ⟨-, -, t, ht, rfl, -⟩ := (dependsOn_graph hnames).mp h
  exact mem_nodes_graph.mpr (List.mem_map_of_mem ht)

/-- The keys that may be deferred in a round are those that lead from a table between circles to
another one. -/
theorem isWithin_iff {members : List QualifiedName}
    (hsort : (graph tables deferred).sort = .error members) :
    isWithin members d = true ↔ d.StandsBetween (LeadsTo tables deferred) := by
  have hmem (n : QualifiedName) : n ∈ members ↔ IsBetween (LeadsTo tables deferred) n :=
    DependencyGraph.mem_iff_of_sort_error (mem_nodes_of_leadsTo hnames) hsort
  rw [isWithin, Bool.and_eq_true, List.contains_iff_mem, List.contains_iff_mem, hmem, hmem]
  rfl

/-! ### What the rounds keep up -/

omit hnames in
/-- The keys that were deferred so far. They came in their order, and each of them was in the way
once those before it were deferred. A key that is still open comes behind all of them, or it was not
in the way when its turn came. -/
structure TakenInOrder (tables : List Table) (deferred : List Deferral) : Prop where
  sorted : deferred.Pairwise fun d e => Deferral.order d e = .lt
  inTheWay : ∀ d ∈ deferred, d.StandsBetween (LeadsTo tables (d.before deferred))
  passed : ∀ d ∈ openKeys tables deferred, (∀ e ∈ deferred, Deferral.order e d = .lt) ∨
    ¬d.StandsBetween (LeadsTo tables (d.before deferred))

omit hnames in
theorem takenInOrder_nil (tables : List Table) : TakenInOrder tables [] :=
  ⟨.nil, nofun, fun _ _ => Or.inl nofun⟩

/-- **One round** keeps the order up. The key that it defers is the least one in the way, so it
comes behind all that were deferred before, and the keys that it passes over are out of the way. -/
theorem TakenInOrder.round (h : TakenInOrder tables deferred) {next : List Deferral}
    (hround : Round tables deferred next) : TakenInOrder tables next := by
  obtain ⟨hsort, hleast⟩ := hround
  rename_i members d
  obtain ⟨hopen, hwithin⟩ := List.mem_filter.mp (Deferral.least?_mem hleast)
  have hbetween := (isWithin_iff hnames hsort).mp hwithin
  have hlast : ∀ e ∈ deferred, Deferral.order e d = .lt :=
    (h.passed d hopen).resolve_right fun hnot =>
      hnot (standsBetween_of_subset hnames (Deferral.before_subset d deferred) hbetween)
  constructor
  case sorted =>
    rw [List.pairwise_append]
    exact ⟨h.sorted, List.pairwise_singleton _ _, fun e he =>
      List.forall_mem_singleton.mpr (hlast e he)⟩
  case inTheWay =>
    refine List.forall_mem_append.mpr ⟨fun e he => ?_, List.forall_mem_singleton.mpr ?_⟩
    · have hnot := Std.OrientedCmp.not_lt_of_lt (hlast e he)
      exact standsBetween_of_subset hnames (Deferral.before_concat_subset deferred hnot)
        (h.inTheWay e he)
    · have hsub := Deferral.before_concat_subset deferred (Deferral.order_self_ne_lt d)
      exact standsBetween_of_subset hnames
        (List.Subset.trans hsub (Deferral.before_subset d deferred)) hbetween
  case passed =>
    intro e he
    rw [openKeys_concat, Deferral.mem_without] at he
    obtain ⟨he, hcolumn⟩ := he
    rcases h.passed e he with hbehind | hnot
    · by_cases hlt : Deferral.order d e = .lt
      · exact Or.inl (List.forall_mem_append.mpr ⟨hbehind, List.forall_mem_singleton.mpr hlt⟩)
      · -- were it in the way now, it would be the least one
        refine Or.inr fun hstands => ?_
        have hsub : deferred ⊆ e.before (deferred ++ [d]) := fun f hf =>
          Deferral.mem_before.mpr ⟨List.mem_append_left _ hf, hbehind f hf⟩
        have hstands := standsBetween_of_subset hnames hsub hstands
        have hle := Deferral.isLE_of_least? hleast
          (List.mem_filter.mpr ⟨he, (isWithin_iff hnames hsort).mpr hstands⟩)
        obtain ⟨htable, hcol⟩ := Deferral.eq_of_order_eq
          ((Ordering.isLE_iff_eq_lt_or_eq_eq.mp hle).resolve_left hlt)
        exact hcolumn (Prod.ext htable.symm hcol.symm)
    · have hsub := e.before_mono (List.subset_append_left deferred [d])
      exact Or.inr fun hstands => hnot (standsBetween_of_subset hnames hsub hstands)

/-- **Any number of rounds** keeps the order up. -/
theorem takenInOrder_of_rounds (h : ReflTransGen (Round tables) [] deferred) :
    TakenInOrder tables deferred := by
  induction h with
  | refl => exact takenInOrder_nil tables
  | tail _ hround ih => exact ih.round hnames hround

theorem takenInOrder_of_breakCycles {sorted : List QualifiedName}
    (h : breakCycles tables [] (tables.flatMap Table.breakable) = .ok (sorted, deferred)) :
    TakenInOrder tables deferred := by
  obtain ⟨last, hrounds, -, hresult⟩ := (terminates tables).result
  rw [hresult] at h
  obtain ⟨sorted', -, heq⟩ := Except.map_eq_ok_iff.mp h
  cases heq
  exact takenInOrder_of_rounds hnames hrounds

/-- **The keys that are deferred in the end** are those that stand between circles when the ones
before them are taken away. A key that was passed over has no circles left to stand between. -/
theorem mem_deferred_iff (hcolumns : ∀ t ∈ tables, (t.columns.map (·.name)).Nodup)
    {sorted : List QualifiedName}
    (h : breakCycles tables [] (tables.flatMap Table.breakable) = .ok (sorted, deferred)) :
    d ∈ deferred ↔ d ∈ tables.flatMap Table.breakable ∧
      d.StandsBetween (LeadsTo tables (d.before deferred)) := by
  have hinOrder := takenInOrder_of_breakCycles hnames h
  obtain ⟨hsort, new, hall, hnew, -⟩ := breakCycles_ok h
  obtain rfl : deferred = new := hall
  constructor
  · exact fun hd => ⟨hnew d hd, hinOrder.inTheWay d hd⟩
  · rintro ⟨hd, hstands⟩
    by_contra hnot
    have hopen : d ∈ openKeys tables deferred := by
      refine List.mem_filter.mpr ⟨hd, ?_⟩
      rw [Bool.not_eq_true', ← Bool.not_eq_true, Deferral.covers_iff]
      rintro ⟨e, he, htable, hcolumn⟩
      obtain rfl := eq_of_mem_breakable hnames hcolumns (hnew e he) hd htable hcolumn
      exact hnot he
    rcases hinOrder.passed d hopen with hbehind | hout
    · have hsub : deferred ⊆ d.before deferred := fun e he =>
        Deferral.mem_before.mpr ⟨he, hbehind e he⟩
      have hstands := standsBetween_of_subset hnames hsub hstands
      exact DependencyGraph.not_isBetween_of_sort_ok (mem_nodes_of_leadsTo hnames) hsort _ hstands.1
    · exact hout hstands

end Names

end TableOrder

/-! ### The keys that a plan adds -/

namespace Plan

/-- Among the tables that the plan creates, one leads to another one by a declared foreign key that
is not deferred. -/
def LeadsTo (p : Plan) (s : DeclaredSchema) (c : Catalog) (deferred : List Deferral)
    (a b : QualifiedName) : Prop :=
  a ≠ b ∧ a ∈ Action.createdNames p.actions ∧ b ∈ Action.createdNames p.actions ∧
    ∃ t ∈ s.resolved c.defaultSchema, t.qualifiedName = a ∧ b ∈ t.dependencies deferred

instance (p : Plan) (s : DeclaredSchema) (c : Catalog) (deferred : List Deferral)
    (a b : QualifiedName) : Decidable (p.LeadsTo s c deferred a b) :=
  inferInstanceAs (Decidable (_ ∧ _))

/-- The declared foreign keys of created tables lead back from the table that the key leads to. -/
def LeadsBack (p : Plan) (s : DeclaredSchema) (c : Catalog) (d : Deferral) : Prop :=
  ReflTransGen (p.LeadsTo s c []) d.foreignKey.table d.table

end Plan

namespace Reconcile

variable {s : DeclaredSchema} {c : Catalog} {detectDrift : Bool} {p : Plan}
  {deferred : List Deferral} {d : Deferral}

theorem mem_createdNames_iff_mem_newTables (h : reconcile c.view s detectDrift = .ok p)
    {n : QualifiedName} :
    n ∈ Action.createdNames p.actions ↔ n ∈ (newTables s c).map Table.qualifiedName := by
  rw [newTables, List.map_map]
  exact (createsFirst_of_reconcile h).mem_iff n

section Names

variable (hnames : ((s.resolved c.defaultSchema).map Table.qualifiedName).Nodup)
  (h : reconcile c.view s detectDrift = .ok p)

include hnames h

/-- A declared table that is created is one of the tables that were arranged. -/
theorem accepted_mem_newTables {t : Table} (ht : t ∈ s.resolved c.defaultSchema)
    (hcreated : t.qualifiedName ∈ Action.createdNames p.actions) :
    t.accepted s.dialect ∈ newTables s c := by
  rw [mem_createdNames_iff_mem_newTables h] at hcreated
  obtain ⟨_, hu, hname⟩ := List.mem_map.mp hcreated
  obtain ⟨u, hu', rfl⟩ := List.mem_map.mp hu
  obtain rfl := List.inj_on_of_nodup_map hnames (List.mem_of_mem_filter hu') ht hname
  exact hu

/-- The keys of the created tables are those of the tables that were arranged. -/
theorem leadsTo_eq : p.LeadsTo s c deferred = TableOrder.LeadsTo (newTables s c) deferred := by
  funext a b
  rw [eq_iff_iff, Plan.LeadsTo, TableOrder.LeadsTo,
    TableOrder.dependsOn_graph (nodup_newTables hnames)]
  have hcreated (n : QualifiedName) := mem_createdNames_iff_mem_newTables (n := n) h
  constructor
  · rintro ⟨hne, ha, hb, t, ht, rfl, hdep⟩
    exact ⟨hne, (hcreated b).mp hb, _, accepted_mem_newTables hnames h ht ha, rfl, hdep⟩
  · rintro ⟨hne, hb, _, hu, rfl, hdep⟩
    obtain ⟨u, hu', rfl⟩ := List.mem_map.mp hu
    exact ⟨hne, (hcreated _).mpr (List.mem_map_of_mem hu), (hcreated b).mpr hb, u,
      List.mem_of_mem_filter hu', rfl, hdep⟩

/-- A key between circles belongs to a table that the plan creates. -/
theorem mem_breakable_newTables (hd : d ∈ (s.resolved c.defaultSchema).flatMap Table.breakable)
    (hstands : d.StandsBetween (p.LeadsTo s c deferred)) :
    d ∈ (newTables s c).flatMap Table.breakable := by
  obtain ⟨n, ⟨-, hcreated, -⟩, -⟩ := leadsRound_iff_exists_next.mp (isBetween_iff.mp hstands.1).1
  obtain ⟨t, ht, hd⟩ := List.mem_flatMap.mp hd
  have htable : d.table = t.qualifiedName := by
    obtain ⟨_, -, _, -, -, -, rfl⟩ := Table.mem_breakable.mp hd
    rfl
  rw [htable] at hcreated
  exact List.mem_flatMap.mpr ⟨_, accepted_mem_newTables hnames h ht hcreated, hd⟩

end Names

theorem mem_breakable_resolved (hd : d ∈ (newTables s c).flatMap Table.breakable) :
    d ∈ (s.resolved c.defaultSchema).flatMap Table.breakable := by
  obtain ⟨_, hu, hd⟩ := List.mem_flatMap.mp hd
  obtain ⟨u, hu', rfl⟩ := List.mem_map.mp hu
  exact List.mem_flatMap.mpr ⟨u, List.mem_of_mem_filter hu', hd⟩

/-- Where foreign keys are checked at once, a plan adds the keys that its order defers. -/
theorem exists_breakCycles_of_reconcile (hdialect : s.dialect ≠ .sqlite)
    (h : reconcile c.view s detectDrift = .ok p) :
    ∃ sorted, TableOrder.breakCycles (newTables s c) [] ((newTables s c).flatMap Table.breakable) =
      .ok (sorted, p.addedKeys) := by
  obtain ⟨-, created, deferred, horder, -, rfl⟩ := reconcile_eq_ok_iff.mp h
  have hforward : s.dialect.allowsForwardReferences = false := by
    simpa [Dialect.allowsForwardReferences] using hdialect
  rw [hforward] at horder
  obtain ⟨sorted, all, hbreak, ⟨hfalse, -⟩ | ⟨-, rfl, -⟩⟩ := TableOrder.order_ok horder
  · cases hfalse
  · rw [addedKeys_planOf]
    exact ⟨sorted, hbreak⟩

/-- **The keys that a plan adds** are the declared ones that may be null and stand between circles
when the added keys before them are taken away. -/
theorem mem_addedKeys_iff (hdialect : s.dialect ≠ .sqlite)
    (hnames : ((s.resolved c.defaultSchema).map Table.qualifiedName).Nodup)
    (hcolumns : ∀ t ∈ s.tables, (t.columns.map (·.name)).Nodup)
    (h : reconcile c.view s detectDrift = .ok p) :
    d ∈ p.addedKeys ↔ d ∈ (s.resolved c.defaultSchema).flatMap Table.breakable ∧
      d.StandsBetween (p.LeadsTo s c (d.before p.addedKeys)) := by
  obtain ⟨sorted, hbreak⟩ := exists_breakCycles_of_reconcile hdialect h
  have hiff := TableOrder.mem_deferred_iff (d := d) (nodup_newTables hnames)
    (nodup_columns_newTables hcolumns) hbreak
  rw [← leadsTo_eq hnames h] at hiff
  rw [hiff]
  constructor
  · exact fun ⟨hd, hstands⟩ => ⟨mem_breakable_resolved hd, hstands⟩
  · exact fun ⟨hd, hstands⟩ => ⟨mem_breakable_newTables hnames h hd hstands, hstands⟩

end Reconcile

open Reconcile

/-- **Which foreign keys a plan adds.** Let the dialect be one that checks foreign keys when a
table is created, and let the names of the declared tables and of the columns of each be different.
The keys that are added come in the order of their tables and columns. A declared key is added just
if it may be null, leads to another table, and both tables are between circles of the declared keys
of created tables when the added keys before it are taken away. So it is between circles of all of
these keys, but it need not be on one: the declared keys lead back from the target of each added
key if and only if they do so from that of each key that is between circles like that. -/
theorem reconcile_defersBetween_iff {s : DeclaredSchema} (hdialect : s.dialect ≠ .sqlite)
    {got : Catalog} (hnames : ((s.resolved got.defaultSchema).map Table.qualifiedName).Nodup)
    (hcolumns : ∀ t ∈ s.tables, (t.columns.map (·.name)).Nodup) {detectDrift : Bool} {p : Plan}
    (h : reconcile got.view s detectDrift = .ok p) :
    p.addedKeys.Pairwise (fun d e => Deferral.order d e = .lt) ∧
    (∀ d, d ∈ p.addedKeys ↔ d ∈ (s.resolved got.defaultSchema).flatMap Table.breakable ∧
      d.StandsBetween (p.LeadsTo s got (d.before p.addedKeys))) ∧
    (∀ d ∈ p.addedKeys, d.StandsBetween (p.LeadsTo s got [])) ∧
    ((∀ d ∈ p.addedKeys, p.LeadsBack s got d) ↔
      ∀ d ∈ (s.resolved got.defaultSchema).flatMap Table.breakable,
        d.StandsBetween (p.LeadsTo s got (d.before p.addedKeys)) → p.LeadsBack s got d) := by
  have hmem (d : Deferral) := mem_addedKeys_iff (d := d) hdialect hnames hcolumns h
  obtain ⟨sorted, hbreak⟩ := exists_breakCycles_of_reconcile hdialect h
  have hinOrder := TableOrder.takenInOrder_of_breakCycles (nodup_newTables hnames) hbreak
  refine ⟨hinOrder.sorted, hmem, fun d hd => ?_, ?_⟩
  · have hstands := ((hmem d).mp hd).2
    rw [leadsTo_eq hnames h] at hstands ⊢
    exact TableOrder.standsBetween_of_subset (nodup_newTables hnames) (List.nil_subset _) hstands
  · constructor
    · exact fun hback d hd hstands => hback d ((hmem d).mpr ⟨hd, hstands⟩)
    · exact fun hback d hd => hback d ((hmem d).mp hd).1 ((hmem d).mp hd).2

/-- The store of a member of staff is deferred, and stores lead back to staff by their managers. -/
theorem reconcile_defersBetween_iff_staffAndStore :
    let got : Catalog := { defaultSchema := "public" }
    ∃ p, reconcile got.view staffAndStore false = .ok p ∧ p.addedKeys = [storeOfStaff] ∧
      storeOfStaff.StandsBetween (p.LeadsTo staffAndStore got []) ∧
      ∀ d ∈ (staffAndStore.resolved "public").flatMap Table.breakable,
        d.StandsBetween (p.LeadsTo staffAndStore got (d.before p.addedKeys)) →
          p.LeadsBack staffAndStore got d := by
  intro got
  have hkeys : staffAndStorePlan.addedKeys = [storeOfStaff] := rfl
  obtain ⟨-, -, hbetween, hback⟩ :=
    reconcile_defersBetween_iff (by decide) (by decide) (by decide) reconcile_staffAndStore
  refine ⟨_, reconcile_staffAndStore, hkeys, hbetween _ (hkeys ▸ List.mem_cons_self), hback.mp ?_⟩
  rw [hkeys, List.forall_mem_singleton]
  exact .single (by decide)

/-- A column for a number that leads to a table, and may be empty. -/
def numberOf (name table column : String) : Column where
  name := name
  columnType := "INT"
  kind := some .number
  references := some { table := { name := table }, column := column }

/-- An address lies in a city and has an owner, a customer lives at an address, a city lies in a
country, and a country has a capital. -/
def addresses : DeclaredSchema where
  dialect := .postgres
  tables := [
    { name := "address"
      columns := [
        { name := "address_id", columnType := "INT", kind := some .number, notNull := true,
          primaryKey := true },
        numberOf "city_id" "city" "city_id",
        numberOf "owner_id" "customer" "customer_id"] },
    { name := "customer"
      columns := [
        { name := "customer_id", columnType := "INT", kind := some .number, notNull := true,
          primaryKey := true },
        numberOf "address_id" "address" "address_id"] },
    { name := "city"
      columns := [
        { name := "city_id", columnType := "INT", kind := some .number, notNull := true,
          primaryKey := true },
        numberOf "country_id" "country" "country_id"] },
    { name := "country"
      columns := [
        { name := "country_id", columnType := "INT", kind := some .number, notNull := true,
          primaryKey := true },
        numberOf "capital_id" "city" "city_id"] }]

/-- The reference from addresses to cities. -/
def cityOfAddress : Deferral where
  table := ⟨"public", "address"⟩
  column := "city_id"
  foreignKey := { table := ⟨"public", "city"⟩, column := "city_id" }

/-- Addresses and customers lead to each other, and so do cities and countries. -/
theorem leadsTo_addresses : ∀ e ∈ [("address", "customer"), ("customer", "address"),
    ("city", "country"), ("country", "city")],
    TableOrder.LeadsTo (newTables addresses { defaultSchema := "public" }) [] ⟨"public", e.1⟩
      ⟨"public", e.2⟩ := by
  have hall : ∀ e ∈ [("address", "customer"), ("customer", "address"), ("city", "country"),
      ("country", "city")], (⟨"public", e.1⟩ : QualifiedName) ≠ ⟨"public", e.2⟩ ∧
      ⟨"public", e.2⟩ ∈ (newTables addresses { defaultSchema := "public" }).map
        Table.qualifiedName ∧
      ∃ t ∈ newTables addresses { defaultSchema := "public" }, t.qualifiedName = ⟨"public", e.1⟩ ∧
        ⟨"public", e.2⟩ ∈ t.dependencies [] := by
    decide
  exact fun e he => (TableOrder.dependsOn_graph (by decide)).mpr (hall e he)

/-- There is a plan for these tables, since all of the references may be empty. -/
theorem exists_reconcile_addresses :
    ∃ p, reconcile (Catalog.view { defaultSchema := "public" }) addresses false = .ok p := by
  let tables := newTables addresses { defaultSchema := "public" }
  have hnames : (tables.map Table.qualifiedName).Nodup := by decide
  have hempty : ∀ t ∈ tables, ∀ c ∈ t.columns, c.notNull = true → c.references = none := by decide
  have hrank : TableOrder.IsRanked (fun _ => 0) tables := by
    intro t ht c hc hnull fk hfk
    rw [hempty t ht c hc hnull] at hfk
    cases hfk
  obtain ⟨⟨created, deferred⟩, horder⟩ := TableOrder.exists_order_ok hnames hrank false
  exact ⟨_, reconcile_eq_ok_iff.mpr ⟨fun _ _ hlisted => Bool.noConfusion hlisted, _, _, horder,
    (Dialect.isOk_createTable_of_order hnames horder).mpr (by decide), rfl⟩⟩

/-- The city of an address is deferred, though cities and countries lead to each other only. -/
theorem reconcile_defersCityOfAddress :
    let got : Catalog := { defaultSchema := "public" }
    ∃ p, reconcile got.view addresses false = .ok p ∧ cityOfAddress ∈ p.addedKeys ∧
      ¬p.LeadsBack addresses got cityOfAddress := by
  intro got
  obtain ⟨p, h⟩ := exists_reconcile_addresses
  have hnames : ((addresses.resolved got.defaultSchema).map Table.qualifiedName).Nodup := by decide
  have hleads : p.LeadsTo addresses got [] = TableOrder.LeadsTo (newTables addresses got) [] :=
    leadsTo_eq hnames h
  refine ⟨p, h, (mem_addedKeys_iff (by decide) hnames (by decide) h).mpr ⟨by decide, ?_⟩, ?_⟩
  · have hfirst : cityOfAddress.before p.addedKeys = [] := by
      refine List.filter_eq_nil_iff.mpr fun e he hlt => ?_
      have he := ((mem_addedKeys_iff (by decide) hnames (by decide) h).mp he).1
      have hall : ∀ e ∈ (addresses.resolved got.defaultSchema).flatMap Table.breakable,
          Deferral.order e cityOfAddress ≠ .lt := by
        decide
      exact hall e he (of_decide_eq_true hlt)
    rw [hfirst, hleads]
    constructor
    · exact isBetween_of_transGen (.tail
        (.single (leadsTo_addresses ("address", "customer") (by decide)))
        (leadsTo_addresses ("customer", "address") (by decide)))
    · exact isBetween_of_transGen (.tail
        (.single (leadsTo_addresses ("city", "country") (by decide)))
        (leadsTo_addresses ("country", "city") (by decide)))
  · intro hback
    -- whatever cities lead to is a city or a country
    have hclosed : ∀ t ∈ addresses.resolved got.defaultSchema,
        t.qualifiedName ∈ [⟨"public", "city"⟩, (⟨"public", "country"⟩ : QualifiedName)] →
        ∀ n ∈ t.dependencies [],
          n ∈ [⟨"public", "city"⟩, (⟨"public", "country"⟩ : QualifiedName)] := by
      decide
    have hreach {n : QualifiedName}
        (hn : ReflTransGen (p.LeadsTo addresses got []) ⟨"public", "city"⟩ n) :
        n ∈ [⟨"public", "city"⟩, (⟨"public", "country"⟩ : QualifiedName)] := by
      induction hn with
      | refl => decide
      | tail _ hstep ih =>
        obtain ⟨-, -, -, t, ht, rfl, hdep⟩ := hstep
        exact hclosed t ht ih _ hdep
    exact absurd (hreach hback) (by decide)

end AdditiveSchema
