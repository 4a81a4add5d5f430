import AdditiveSchema.Plan.Deferral
import AdditiveSchema.Proofs.Circle
import AdditiveSchema.Proofs.Dependency
import AdditiveSchema.Proofs.List
import AdditiveSchema.Proofs.Table.NormalForm
import Mathlib.Order.WellFounded

/-!
# The order of new tables

Sorting the new tables either fails for good or ends, after some foreign keys were deferred, with
an order in which every key that was not deferred leads to an earlier table. Whether it ends
depends on the keys that may not be null alone: it does if the tables can be ranked so that each
such key leads to a table of lower rank, and any tables taken from ranked ones are ranked too.

## Main definitions

* `Table.IsReduct` : a table that may lack some foreign keys of another one.
* `Table.Needs` : a table has a key to another one that may not be null.
* `Table.leavingOut` : a table without the foreign keys that are deferred.
* `TableOrder.IsRanked` : keys that may not be null lead to tables of lower rank.

## Main results

* `TableOrder.breakCycles_ok` : what is known when the sort ends.
* `TableOrder.breakCycles_error` : what stands in the way of sorting the tables.
* `TableOrder.exists_breakCycles_ok` : ranked tables can be sorted.
* `TableOrder.exists_isRanked` : tables that were sorted are ranked.
* `TableOrder.order_ok` : the arranged tables and the deferred keys.
-/

namespace AdditiveSchema

/-! ### Foreign keys of a table -/

namespace Column

/-- The column without its foreign key. -/
def withoutReference (c : Column) : Column :=
  { c with references := none }

/-- The column is the other one, or the other one without its foreign key. -/
def IsReduct (e c : Column) : Prop :=
  e = c ∨ e = c.withoutReference

theorem IsReduct.refl (c : Column) : c.IsReduct c :=
  Or.inl rfl

theorem IsReduct.trans {a b c : Column} (hab : a.IsReduct b) (hbc : b.IsReduct c) :
    a.IsReduct c := by
  rcases hab with rfl | rfl
  · exact hbc
  · rcases hbc with rfl | rfl <;> exact Or.inr rfl

/-- The column without its foreign key, if that is deferred. -/
def leavingOut (deferred : List Deferral) (table : QualifiedName) (c : Column) : Column :=
  if Deferral.covers deferred table c.name then c.withoutReference else c

@[simp] theorem name_leavingOut (deferred : List Deferral) (table : QualifiedName) (c : Column) :
    (c.leavingOut deferred table).name = c.name := by
  unfold leavingOut
  split <;> rfl

end Column

namespace Table

/-- The table is the other one, except that it may lack some of its foreign keys. -/
structure IsReduct (u t : Table) : Prop where
  columns : List.Forall₂ Column.IsReduct u.columns t.columns
  rest : u = { t with columns := u.columns }

theorem IsReduct.qualifiedName_eq {u t : Table} (h : u.IsReduct t) :
    u.qualifiedName = t.qualifiedName := by
  rw [h.rest]
  rfl

theorem IsReduct.map_name_columns {u t : Table} (h : u.IsReduct t) :
    u.columns.map (·.name) = t.columns.map (·.name) := by
  have hcolumns := h.columns
  generalize u.columns = es, t.columns = cs at hcolumns
  induction hcolumns with
  | nil => rfl
  | cons hec _ ih =>
    rw [List.map_cons, List.map_cons, ih]
    rcases hec with rfl | rfl <;> rfl

theorem IsReduct.refl (t : Table) : t.IsReduct t :=
  ⟨List.forall₂_same.mpr fun c _ => Column.IsReduct.refl c, rfl⟩

theorem IsReduct.trans {s t u : Table} (hst : s.IsReduct t) (htu : t.IsReduct u) :
    s.IsReduct u := by
  refine ⟨forall₂_trans (R := Column.IsReduct) (fun _ _ _ => .trans) hst.columns htu.columns, ?_⟩
  rw [hst.rest, htu.rest]

theorem map_qualifiedName_of_forall₂ {us ts : List Table} (h : List.Forall₂ IsReduct us ts) :
    us.map qualifiedName = ts.map qualifiedName := by
  induction h with
  | nil => rfl
  | cons hut _ ih => rw [List.map_cons, List.map_cons, hut.qualifiedName_eq, ih]

/-- The table has a foreign key to the other one that may not be null. -/
def Needs (t u : Table) : Prop :=
  ∃ c ∈ t.columns, c.notNull = true ∧ ∃ fk, c.references = some fk ∧ fk.table = u.qualifiedName

/-- The table without the foreign keys that are deferred. -/
def leavingOut (deferred : List Deferral) (t : Table) : Table :=
  { t with columns := t.columns.map (Column.leavingOut deferred t.qualifiedName) }

theorem mem_breakable {t : Table} {d : Deferral} :
    d ∈ t.breakable ↔ ∃ c ∈ t.columns, ∃ fk, c.references = some fk ∧ c.notNull = false ∧
      fk.table ≠ t.qualifiedName ∧ d = ⟨t.qualifiedName, c.name, fk⟩ := by
  simp only [breakable, List.mem_filterMap]
  refine exists_congr fun c => and_congr_right fun _ => ?_
  cases hfk : c.references with
  | none => simp
  | some fk =>
    cases hnull : c.notNull with
    | true => simp
    | false =>
      by_cases hfk : fk.table = t.qualifiedName
      · simp [hfk]
      · simp [hfk, eq_comm (a := d)]

theorem mem_dependencies {t : Table} {deferred : List Deferral} {n : QualifiedName} :
    n ∈ t.dependencies deferred ↔ ∃ c ∈ t.columns, ∃ fk, c.references = some fk ∧
      Deferral.covers deferred t.qualifiedName c.name = false ∧ fk.table = n := by
  simp only [dependencies, List.mem_filterMap]
  refine exists_congr fun c => and_congr_right fun _ => ?_
  cases hfk : c.references with
  | none => simp
  | some fk => cases hcov : Deferral.covers deferred t.qualifiedName c.name <;> simp

end Table

namespace Deferral

theorem covers_iff {deferred : List Deferral} {table : QualifiedName} {column : String} :
    covers deferred table column = true ↔ ∃ d ∈ deferred, d.table = table ∧ d.column = column := by
  simp [covers]

theorem covers_append (as bs : List Deferral) (table : QualifiedName) (column : String) :
    covers (as ++ bs) table column = (covers as table column || covers bs table column) :=
  List.any_append

theorem least?_eq_none_iff {as : List Deferral} : least? as = none ↔ as = [] := by
  cases as with
  | nil => simp [least?]
  | cons a as =>
    simp only [least?, reduceCtorEq, iff_false]
    split
    · simp
    · split <;> simp

theorem mem_without {d e : Deferral} {as : List Deferral} :
    e ∈ without d as ↔ e ∈ as ∧ (e.table, e.column) ≠ (d.table, d.column) := by
  simp [without, sameColumn, imp_iff_not_or]

end Deferral

namespace TableOrder

variable {tables : List Table}

/-! ### The graph of the references -/

theorem graph_eq (tables : List Table) (deferred : List Deferral) :
    graph tables deferred =
      (tables.flatMap fun t => (t.dependencies deferred).map (t.qualifiedName, ·)).foldl
        (fun g e => g.addDependency e.1 e.2)
        (tables.foldl (fun g t => g.addNode t.qualifiedName) {}) := by
  simp only [graph, List.foldl_flatMap, List.foldl_map]

theorem nodes_graph (h : (tables.map Table.qualifiedName).Nodup) (deferred : List Deferral) :
    (graph tables deferred).nodes = tables.map Table.qualifiedName := by
  rw [graph_eq, DependencyGraph.nodes_foldl_addDependency,
    DependencyGraph.nodes_foldl_addNode _ _ h]

/-- The nodes are the names of the tables, each of them once. -/
theorem mem_nodes_graph {deferred : List Deferral} {n : QualifiedName} :
    n ∈ (graph tables deferred).nodes ↔ n ∈ tables.map Table.qualifiedName := by
  rw [graph_eq, DependencyGraph.nodes_foldl_addDependency, DependencyGraph.mem_nodes_foldl_addNode]
  simp only [List.not_mem_nil, false_or]

theorem nodup_nodes_graph (tables : List Table) (deferred : List Deferral) :
    (graph tables deferred).nodes.Nodup := by
  rw [graph_eq, DependencyGraph.nodes_foldl_addDependency]
  exact DependencyGraph.nodup_nodes_foldl_addNode _ tables List.nodup_nil

/-- The edges are the keys between two different tables that are not deferred. -/
theorem dependsOn_graph (h : (tables.map Table.qualifiedName).Nodup) {deferred : List Deferral}
    {x y : QualifiedName} :
    (graph tables deferred).dependsOn x y = true ↔ x ≠ y ∧ y ∈ tables.map Table.qualifiedName ∧
      ∃ t ∈ tables, t.qualifiedName = x ∧ y ∈ t.dependencies deferred := by
  rw [graph_eq, DependencyGraph.dependsOn_foldl_addDependency,
    DependencyGraph.dependsOn_foldl_addNode, DependencyGraph.nodes_foldl_addNode _ _ h]
  simp only [DependencyGraph.dependsOn, List.contains_nil, Bool.false_eq_true, false_or,
    List.mem_flatMap, List.mem_map, Prod.mk.injEq]
  constructor
  · rintro ⟨⟨t, ht, y', hy', rfl, rfl⟩, hne, -, hy⟩
    exact ⟨hne, hy, t, ht, rfl, hy'⟩
  · rintro ⟨hne, hy, t, ht, rfl, hy'⟩
    exact ⟨⟨t, ht, y, hy', rfl, rfl⟩, hne, ⟨t, ht, rfl⟩, hy⟩

/-! ### Breaking cycles -/

/-- One round: the least of the breakable keys in the circle is deferred. -/
theorem breakCycles_of_error {deferred breakable : List Deferral} {members : List QualifiedName}
    {d : Deferral} (hsort : (graph tables deferred).sort = .error members)
    (hleast : Deferral.least? (breakable.filter (isWithin members)) = some d) :
    breakCycles tables deferred breakable =
      breakCycles tables (deferred ++ [d]) (d.without breakable) := by
  rw [breakCycles, hsort]
  simp only
  split
  · rename_i hnone
    cases hleast.symm.trans hnone
  · rename_i d' hd'
    cases hleast.symm.trans hd'
    rfl

/-- The order of tables with one circle, which is broken by one deferral. -/
theorem order_of_circle {members sorted : List QualifiedName} {d : Deferral}
    (hcircle : (graph tables []).sort = .error members)
    (hleast : Deferral.least? ((tables.flatMap Table.breakable).filter (isWithin members)) = some d)
    (hsort : (graph tables [d]).sort = .ok sorted) (forward : Bool) :
    order tables forward = .ok (if forward then (arrange tables sorted, [])
      else (leaveOut (arrange tables sorted) d, [d])) := by
  rw [order, breakCycles_of_error hcircle hleast, breakCycles, List.nil_append, hsort]
  cases forward <;> rfl

/-- **What is known when the sort ends.** The names are sorted by the keys that are not deferred,
and the new deferrals are breakable keys of different columns. -/
theorem breakCycles_ok {deferred breakable all : List Deferral} {sorted : List QualifiedName}
    (h : breakCycles tables deferred breakable = .ok (sorted, all)) :
    (graph tables all).sort = .ok sorted ∧ ∃ new, all = deferred ++ new ∧
      (∀ d ∈ new, d ∈ breakable) ∧ (new.map fun d => (d.table, d.column)).Nodup := by
  fun_induction breakCycles tables deferred breakable with
  | case1 deferred breakable sorted' hsort =>
    cases h
    exact ⟨hsort, [], by simp, by simp, by simp⟩
  | case2 => cases h
  | case3 deferred breakable members hsort d hd _ ih =>
    obtain ⟨hsorted, new, rfl, hmem, hnodup⟩ := ih h
    have hd := (List.mem_filter.mp (Deferral.least?_mem hd)).1
    refine ⟨hsorted, d :: new, by simp, fun e he => ?_, ?_⟩
    · rcases List.mem_cons.mp he with rfl | he
      · exact hd
      · exact (Deferral.mem_without.mp (hmem e he)).1
    · rw [List.map_cons, List.nodup_cons]
      refine ⟨fun hmem' => ?_, hnodup⟩
      obtain ⟨e, he, heq⟩ := List.mem_map.mp hmem'
      exact (Deferral.mem_without.mp (hmem e he)).2 heq

/-- Keys that may not be null lead to tables of lower rank, as long as they lead to one of the
tables at all. -/
def IsRanked (rank : QualifiedName → Nat) (tables : List Table) : Prop :=
  ∀ t ∈ tables, ∀ c ∈ t.columns, c.notNull = true → ∀ fk, c.references = some fk →
    fk.table ∈ tables.map Table.qualifiedName → fk.table ≠ t.qualifiedName →
    rank fk.table < rank t.qualifiedName

theorem IsRanked.of_subset {rank : QualifiedName → Nat} {us : List Table}
    (h : IsRanked rank tables) (hus : us ⊆ tables) : IsRanked rank us :=
  fun t ht c hc hnull fk hfk hmem => h t (hus ht) c hc hnull fk hfk (List.map_subset _ hus hmem)

/-- Tables each of which needs another one of them cannot be ranked: none could be the lowest. -/
theorem IsRanked.not_isStuck {rank : QualifiedName → Nat} {stuck : List Table}
    (hrank : IsRanked rank tables) (hnames : (tables.map Table.qualifiedName).Nodup)
    (hstuck : stuck ⊆ tables) : ¬ IsStuck Table.Needs stuck := by
  rintro ⟨hne, hnext⟩
  obtain ⟨t, ht, hmin⟩ := (measure fun t : Table => rank t.qualifiedName).wf.has_min
    {t | t ∈ stuck} (List.exists_mem_of_ne_nil stuck hne)
  obtain ⟨u, hu, ⟨c, hc, hnull, fk, hfk, htarget⟩, hut⟩ := hnext t ht
  have hname : u.qualifiedName ≠ t.qualifiedName := fun heq =>
    hut (List.inj_on_of_nodup_map hnames (hstuck hu) (hstuck ht) heq)
  refine hmin u hu ?_
  rw [← htarget] at hname
  have hlt := hrank t (hstuck ht) c hc hnull fk hfk
    (htarget ▸ List.mem_map_of_mem (hstuck hu)) hname
  rwa [htarget] at hlt

/-- If none of the keys to a table that it depends on can be deferred any more, a table needs it. -/
theorem exists_needs_of_dependsOn (hnames : (tables.map Table.qualifiedName).Nodup)
    {deferred : List Deferral} {t : Table} (ht : t ∈ tables) {n : QualifiedName}
    (hdep : (graph tables deferred).dependsOn t.qualifiedName n = true)
    (hdeferred : ∀ d ∈ t.breakable, d.foreignKey.table = n →
      Deferral.covers deferred d.table d.column = true) :
    ∃ u ∈ tables, u.qualifiedName = n ∧ t.Needs u ∧ u ≠ t := by
  obtain ⟨hne, hn, t', ht', hname, hdeps⟩ := (dependsOn_graph hnames).mp hdep
  obtain rfl := List.inj_on_of_nodup_map hnames ht' ht hname
  obtain ⟨c, hc, fk, hfk, hcovers, rfl⟩ := Table.mem_dependencies.mp hdeps
  obtain ⟨u, hu, htarget⟩ := List.mem_map.mp hn
  have hnull : c.notNull = true := by
    by_contra hnull
    have hd := Table.mem_breakable.mpr
      ⟨c, hc, fk, hfk, Bool.eq_false_iff.mpr hnull, hne.symm, rfl⟩
    exact Bool.noConfusion (hcovers.symm.trans (hdeferred _ hd rfl))
  refine ⟨u, hu, htarget, ⟨c, hc, hnull, fk, hfk, htarget.symm⟩, ?_⟩
  rintro rfl
  exact hne htarget

/-- **What stands in the way of sorting the tables.** Where no key is left to defer, there are
tables each of which needs another one of them. -/
theorem breakCycles_error (hnames : (tables.map Table.qualifiedName).Nodup)
    {deferred breakable : List Deferral} {members : List QualifiedName}
    (hbreakable : ∀ t ∈ tables, ∀ d ∈ t.breakable,
      Deferral.covers deferred d.table d.column = false → d ∈ breakable)
    (h : breakCycles tables deferred breakable = .error members) :
    ∃ stuck ⊆ tables, IsStuck Table.Needs stuck := by
  fun_induction breakCycles tables deferred breakable with
  | case1 => cases h
  | case2 deferred breakable members hsort hnone =>
    obtain ⟨hne, hdep⟩ := DependencyGraph.exists_dependsOn_of_sort_error hsort
    refine ⟨tables.filter (members.contains ·.qualifiedName), List.filter_subset_self _, ?_, ?_⟩
    · obtain ⟨m, hm⟩ := List.exists_mem_of_ne_nil members hne
      obtain ⟨_, -, hmn⟩ := hdep m hm
      obtain ⟨-, -, t, ht, rfl, -⟩ := (dependsOn_graph hnames).mp hmn
      exact List.ne_nil_of_mem (List.mem_filter.mpr ⟨ht, List.contains_iff_mem.mpr hm⟩)
    intro t ht
    obtain ⟨ht, hm⟩ := List.mem_filter.mp ht
    obtain ⟨n, hn, hmn⟩ := hdep _ (List.contains_iff_mem.mp hm)
    obtain ⟨u, hu, rfl, hneeds⟩ := exists_needs_of_dependsOn hnames ht hmn fun d hd htarget => by
      by_contra hcovers
      have hname : d.table = t.qualifiedName := by
        obtain ⟨_, -, _, -, -, -, rfl⟩ := Table.mem_breakable.mp hd
        rfl
      have hwithin : isWithin members d = true := by
        rw [isWithin, hname, htarget, hm, List.contains_iff_mem.mpr hn]
        rfl
      have hmem := List.mem_filter.mpr
        ⟨hbreakable t ht d hd (Bool.eq_false_iff.mpr hcovers), hwithin⟩
      rw [Deferral.least?_eq_none_iff.mp hnone] at hmem
      exact List.not_mem_nil hmem
    exact ⟨u, List.mem_filter.mpr ⟨hu, List.contains_iff_mem.mpr hn⟩, hneeds⟩
  | case3 deferred breakable members' hsort d hd _ ih =>
    refine ih (fun t ht e he hcovers => ?_) h
    rw [Deferral.covers_append, Bool.or_eq_false_iff] at hcovers
    refine Deferral.mem_without.mpr ⟨hbreakable t ht e he hcovers.1, fun heq => ?_⟩
    simp_all [Deferral.covers]

/-- **Ranked tables can be sorted.** -/
theorem exists_breakCycles_ok {rank : QualifiedName → Nat}
    (hnames : (tables.map Table.qualifiedName).Nodup) (hrank : IsRanked rank tables)
    (deferred breakable : List Deferral)
    (hbreakable : ∀ t ∈ tables, ∀ d ∈ t.breakable,
      Deferral.covers deferred d.table d.column = false → d ∈ breakable) :
    ∃ r, breakCycles tables deferred breakable = .ok r := by
  cases h : breakCycles tables deferred breakable with
  | ok r => exact ⟨r, rfl⟩
  | error members =>
    obtain ⟨stuck, hstuck, hneeds⟩ := breakCycles_error hnames hbreakable h
    exact absurd hneeds (hrank.not_isStuck hnames hstuck)

/-- **Tables that were sorted are ranked,** by their place in the order. No key that may not be
null is deferred, if the columns of each table have different names. -/
theorem exists_isRanked {sorted : List QualifiedName} {all : List Deferral}
    (hnames : (tables.map Table.qualifiedName).Nodup)
    (hcolumns : ∀ t ∈ tables, (t.columns.map (·.name)).Nodup)
    (h : breakCycles tables [] (tables.flatMap Table.breakable) = .ok (sorted, all)) :
    ∃ rank, IsRanked rank tables := by
  obtain ⟨hsort, new, hall, hnew, -⟩ := breakCycles_ok h
  rw [List.nil_append] at hall
  subst hall
  refine ⟨fun n => sorted.idxOf n, fun t ht c hc hnull fk hfk htables hne => ?_⟩
  have hperm := DependencyGraph.perm_of_sort hsort
  rw [nodes_graph hnames] at hperm
  have hcovers : Deferral.covers all t.qualifiedName c.name = false := by
    rw [← Bool.not_eq_true, Deferral.covers_iff]
    rintro ⟨d, hd, htable, hcolumn⟩
    obtain ⟨t', ht', hd⟩ := List.mem_flatMap.mp (hnew d hd)
    obtain ⟨c', hc', fk', hfk', hnull', -, rfl⟩ := Table.mem_breakable.mp hd
    obtain rfl := List.inj_on_of_nodup_map hnames ht' ht htable
    obtain rfl := List.inj_on_of_nodup_map (hcolumns t' ht) hc' hc hcolumn
    rw [hnull'] at hnull
    cases hnull
  have hdep := (dependsOn_graph hnames).mpr ⟨hne.symm, htables, t, ht, rfl,
    Table.mem_dependencies.mpr ⟨c, hc, fk, hfk, hcovers, rfl⟩⟩
  have hx := hperm.mem_iff.mpr (List.mem_map_of_mem ht)
  have hy := hperm.mem_iff.mpr htables
  by_contra hlt
  change ¬ sorted.idxOf fk.table < sorted.idxOf t.qualifiedName at hlt
  have hne' : sorted.idxOf t.qualifiedName ≠ sorted.idxOf fk.table :=
    fun heq => hne ((List.idxOf_inj hx).mp heq).symm
  have hpair := List.pairwise_iff_getElem.mp (DependencyGraph.pairwise_of_sort hsort)
    (sorted.idxOf t.qualifiedName) (sorted.idxOf fk.table) (List.idxOf_lt_length_of_mem hx)
    (List.idxOf_lt_length_of_mem hy) (by omega)
  rw [List.getElem_idxOf, List.getElem_idxOf, hdep] at hpair
  cases hpair

/-! ### The arranged tables -/

theorem map_qualifiedName_arrange {names : List QualifiedName}
    (h : names ⊆ tables.map Table.qualifiedName) :
    (arrange tables names).map Table.qualifiedName = names := by
  rw [arrange, List.map_filterMap]
  refine (List.filterMap_congr fun n hn => ?_).trans List.filterMap_some
  obtain ⟨t, ht, rfl⟩ := List.mem_map.mp (h hn)
  have hfind : (tables.find? (·.qualifiedName == t.qualifiedName)).isSome :=
    List.find?_isSome.mpr ⟨t, ht, beq_self_eq_true _⟩
  obtain ⟨u, hu⟩ := Option.isSome_iff_exists.mp hfind
  have hname := List.find?_some hu
  rw [hu, Option.map_some, eq_of_beq hname]

/-- Tables of different names are only brought into another order. -/
theorem perm_arrange {names : List QualifiedName} (hnames : (tables.map Table.qualifiedName).Nodup)
    (h : names.Perm (tables.map Table.qualifiedName)) : (arrange tables names).Perm tables := by
  have hmap := map_qualifiedName_arrange h.subset
  have hnodup : (arrange tables names).Nodup :=
    List.Nodup.of_map Table.qualifiedName (hmap.symm ▸ h.nodup_iff.mpr hnames)
  refine (List.perm_ext_iff_of_nodup hnodup (hnames.of_map _)).mpr fun t => ?_
  constructor
  · intro ht
    obtain ⟨_, -, hfind⟩ := List.mem_filterMap.mp ht
    exact List.mem_of_find?_eq_some hfind
  · intro ht
    have hname := hmap ▸ h.mem_iff.mpr (List.mem_map_of_mem ht)
    obtain ⟨u, hu, hut⟩ := List.mem_map.mp hname
    obtain ⟨_, -, hfind⟩ := List.mem_filterMap.mp hu
    rwa [← List.inj_on_of_nodup_map hnames (List.mem_of_find?_eq_some hfind) ht hut]

/-! ### Leaving foreign keys out -/

theorem forall₂_modifyFirst {α : Type} {R : α → α → Prop} (hrefl : ∀ a, R a a) {f : α → α}
    (hf : ∀ a, R (f a) a) (p : α → Bool) (as : List α) :
    List.Forall₂ R (modifyFirst p f as) as := by
  induction as with
  | nil => exact List.Forall₂.nil
  | cons a as ih =>
    simp only [modifyFirst]
    split
    · exact List.Forall₂.cons (hf a) (List.forall₂_same.mpr fun b _ => hrefl b)
    · exact List.Forall₂.cons (hrefl a) ih

theorem isReduct_leaveOut (tables : List Table) (d : Deferral) :
    List.Forall₂ Table.IsReduct (leaveOut tables d) tables := by
  refine forall₂_modifyFirst Table.IsReduct.refl (fun t => ⟨?_, rfl⟩) _ tables
  exact forall₂_modifyFirst Column.IsReduct.refl (fun c => Or.inr rfl) _ t.columns

theorem isReduct_foldl_leaveOut (deferred : List Deferral) (tables : List Table) :
    List.Forall₂ Table.IsReduct (deferred.foldl leaveOut tables) tables := by
  induction deferred generalizing tables with
  | nil => exact List.forall₂_same.mpr fun t _ => Table.IsReduct.refl t
  | cons d ds ih =>
    rw [List.foldl_cons]
    exact forall₂_trans (R := Table.IsReduct) (fun _ _ _ => .trans) (ih _)
      (isReduct_leaveOut tables d)

end TableOrder

namespace Table

@[simp] theorem map_name_columns_leavingOut (deferred : List Deferral) (t : Table) :
    (t.leavingOut deferred).columns.map (·.name) = t.columns.map (·.name) := by
  simp [leavingOut, Function.comp_def]

@[simp] theorem leavingOut_nil : leavingOut [] = id := by
  funext t
  have h : Column.leavingOut [] t.qualifiedName = id := rfl
  rw [leavingOut, h, List.map_id, id]

theorem leavingOut_filter (deferred : List Deferral) (t : Table) :
    t.leavingOut (deferred.filter (·.table == t.qualifiedName)) = t.leavingOut deferred := by
  have hcovers (column : String) :
      Deferral.covers (deferred.filter (·.table == t.qualifiedName)) t.qualifiedName column =
        Deferral.covers deferred t.qualifiedName column := by
    rw [Bool.eq_iff_iff, Deferral.covers_iff, Deferral.covers_iff]
    refine exists_congr fun d => ?_
    rw [List.mem_filter, beq_iff_eq, and_assoc, and_self_left]
  have hcolumns : Column.leavingOut (deferred.filter (·.table == t.qualifiedName)) t.qualifiedName =
      Column.leavingOut deferred t.qualifiedName := by
    funext c
    rw [Column.leavingOut, Column.leavingOut, hcovers]
  rw [leavingOut, leavingOut, hcolumns]

theorem isReduct_leavingOut (deferred : List Deferral) (t : Table) :
    (t.leavingOut deferred).IsReduct t := by
  refine ⟨List.forall₂_map_left_iff.mpr (List.forall₂_same.mpr fun c _ => ?_), rfl⟩
  unfold Column.leavingOut
  split
  · exact Or.inr rfl
  · exact Or.inl rfl

/-- Foreign keys can be left out in several steps. -/
theorem leavingOut_leavingOut (as bs : List Deferral) (t : Table) :
    (t.leavingOut as).leavingOut bs = t.leavingOut (as ++ bs) := by
  simp only [leavingOut, qualifiedName, List.map_map, Table.mk.injEq, true_and, and_true]
  refine List.map_congr_left fun c _ => ?_
  rw [Function.comp_apply, Column.leavingOut, Column.name_leavingOut]
  simp only [Column.leavingOut, Deferral.covers_append]
  cases Deferral.covers as ⟨t.schema, t.name⟩ c.name <;>
    cases Deferral.covers bs ⟨t.schema, t.name⟩ c.name <;> rfl

end Table

namespace TableOrder

variable {tables : List Table}

/-- If the names of the tables are different, leaving one key out of them leaves it out of each
table whose columns have different names. -/
theorem forall₂_leaveOut (hnames : (tables.map Table.qualifiedName).Nodup) (d : Deferral) :
    List.Forall₂ (fun u t => (u.columns.map (·.name)).Nodup → u = t.leavingOut [d])
      (leaveOut tables d) tables := by
  rw [leaveOut, modifyFirst_eq_map hnames]
  refine List.forall₂_map_left_iff.mpr (List.forall₂_same.mpr fun t _ hcolumns => ?_)
  by_cases hd : t.qualifiedName = d.table
  · have hmap : (t.modifyColumn d.column Column.withoutReference).columns.map (·.name) =
        t.columns.map (·.name) :=
      map_modifyFirst (f := Column.withoutReference) (fun _ => rfl) _ _
    rw [if_pos (beq_iff_eq.mpr hd)] at hcolumns ⊢
    rw [Table.modifyColumn, modifyFirst_eq_map (hmap ▸ hcolumns), Table.leavingOut]
    simp [Column.leavingOut, Column.withoutReference, Deferral.covers, hd,
      eq_comm (a := d.column)]
  · have hid : Column.leavingOut [d] t.qualifiedName = id := by
      funext c
      simp [Column.leavingOut, Deferral.covers, Ne.symm hd]
    rw [if_neg (by simpa using hd), Table.leavingOut, hid, List.map_id]

/-- **The deferred keys are left out of a table,** and nothing else is, if the names of the tables
and those of its columns are different. -/
theorem forall₂_foldl_leaveOut (deferred : List Deferral)
    (hnames : (tables.map Table.qualifiedName).Nodup) :
    List.Forall₂ (fun u t => (u.columns.map (·.name)).Nodup → u = t.leavingOut deferred)
      (deferred.foldl leaveOut tables) tables := by
  induction deferred generalizing tables with
  | nil => exact List.forall₂_same.mpr fun t _ _ => by rw [Table.leavingOut_nil, id]
  | cons d ds ih =>
    have hleft : ((leaveOut tables d).map Table.qualifiedName).Nodup := by
      rwa [Table.map_qualifiedName_of_forall₂ (isReduct_leaveOut tables d)]
    rw [List.foldl_cons]
    refine forall₂_trans (fun u v t huv hvt hcolumns => ?_) (ih hleft) (forall₂_leaveOut hnames d)
    have hu := huv hcolumns
    rw [hu, Table.map_name_columns_leavingOut] at hcolumns
    rw [hu, hvt hcolumns, Table.leavingOut_leavingOut, List.singleton_append]

theorem foldl_leaveOut_eq_map (deferred : List Deferral)
    (hnames : (tables.map Table.qualifiedName).Nodup)
    (hcolumns : ∀ t ∈ tables, (t.columns.map (·.name)).Nodup) :
    deferred.foldl leaveOut tables = tables.map (Table.leavingOut deferred) := by
  have hleft : ∀ u ∈ deferred.foldl leaveOut tables, (u.columns.map (·.name)).Nodup := by
    intro u hu
    obtain ⟨t, ht, hreduct⟩ := exists_of_forall₂_left (isReduct_foldl_leaveOut deferred tables) hu
    exact hreduct.map_name_columns ▸ hcolumns t ht
  have hall := (List.forall₂_and_left _ _).mpr ⟨hleft, forall₂_foldl_leaveOut deferred hnames⟩
  rw [← List.forall₂_eq_eq_eq, List.forall₂_map_right_iff]
  exact hall.imp fun u t h => h.2 h.1

/-! ### The result -/

/-- The arranged tables and the deferred keys. Where a table may reference a later one, nothing is
deferred. -/
theorem order_ok {forward : Bool} {arranged : List Table} {deferred : List Deferral}
    (h : order tables forward = .ok (arranged, deferred)) :
    ∃ sorted all, breakCycles tables [] (tables.flatMap Table.breakable) = .ok (sorted, all) ∧
      ((forward = true ∧ deferred = [] ∧ arranged = arrange tables sorted) ∨
        (forward = false ∧ deferred = all ∧ arranged = all.foldl leaveOut (arrange tables sorted)))
    := by
  simp only [order] at h
  cases hbreak : breakCycles tables [] (tables.flatMap Table.breakable) with
  | error members => rw [hbreak] at h; cases h
  | ok r =>
    obtain ⟨sorted, all⟩ := r
    refine ⟨sorted, all, rfl, ?_⟩
    rw [hbreak] at h
    cases forward with
    | true =>
      cases h
      exact Or.inl ⟨rfl, rfl, rfl⟩
    | false =>
      cases h
      exact Or.inr ⟨rfl, rfl, rfl⟩

theorem exists_order_ok {rank : QualifiedName → Nat}
    (hnames : (tables.map Table.qualifiedName).Nodup) (hrank : IsRanked rank tables)
    (forward : Bool) : ∃ r, order tables forward = .ok r := by
  obtain ⟨⟨sorted, all⟩, hbreak⟩ := exists_breakCycles_ok hnames hrank []
    (tables.flatMap Table.breakable) fun t ht d hd _ => List.mem_flatMap.mpr ⟨t, ht, hd⟩
  simp only [order, hbreak]
  cases forward
  · exact ⟨_, rfl⟩
  · exact ⟨_, rfl⟩

variable {forward : Bool} {arranged : List Table} {deferred : List Deferral}

theorem exists_isRanked_of_order (hnames : (tables.map Table.qualifiedName).Nodup)
    (hcolumns : ∀ t ∈ tables, (t.columns.map (·.name)).Nodup)
    (h : order tables forward = .ok (arranged, deferred)) : ∃ rank, IsRanked rank tables := by
  obtain ⟨sorted, all, hbreak, -⟩ := order_ok h
  exact exists_isRanked hnames hcolumns hbreak

theorem perm_of_breakCycles {sorted : List QualifiedName} {all : List Deferral}
    (hnames : (tables.map Table.qualifiedName).Nodup)
    (h : breakCycles tables [] (tables.flatMap Table.breakable) = .ok (sorted, all)) :
    sorted.Perm (tables.map Table.qualifiedName) := by
  have hperm := DependencyGraph.perm_of_sort (breakCycles_ok h).1
  rwa [nodes_graph hnames] at hperm

/-- What comes out are the first tables of the sorted names, some of them without some of their
foreign keys. -/
theorem exists_isReduct_arrange (h : order tables forward = .ok (arranged, deferred)) :
    ∃ sorted all, breakCycles tables [] (tables.flatMap Table.breakable) = .ok (sorted, all) ∧
      List.Forall₂ Table.IsReduct arranged (arrange tables sorted) := by
  obtain ⟨sorted, all, hbreak, hcases⟩ := order_ok h
  refine ⟨sorted, all, hbreak, ?_⟩
  rcases hcases with ⟨-, -, rfl⟩ | ⟨-, -, rfl⟩
  · exact List.forall₂_same.mpr fun t _ => Table.IsReduct.refl t
  · exact isReduct_foldl_leaveOut all _

/-- **No table is lost or doubled.** What comes out are the tables that went in, some of them
without some of their foreign keys. -/
theorem exists_perm_of_order (hnames : (tables.map Table.qualifiedName).Nodup)
    (h : order tables forward = .ok (arranged, deferred)) :
    ∃ us : List Table, us.Perm tables ∧ List.Forall₂ Table.IsReduct arranged us := by
  obtain ⟨sorted, all, hbreak, hreducts⟩ := exists_isReduct_arrange h
  exact ⟨arrange tables sorted, perm_arrange hnames (perm_of_breakCycles hnames hbreak), hreducts⟩

/-- **Of several tables of one name, the first one comes out.** The names that come out are those
that went in, each of them once. -/
theorem first_of_order (h : order tables forward = .ok (arranged, deferred)) :
    (arranged.map Table.qualifiedName).Nodup ∧
      (∀ n, n ∈ arranged.map Table.qualifiedName ↔ n ∈ tables.map Table.qualifiedName) ∧
      ∀ u ∈ arranged, ∃ t, tables.find? (·.qualifiedName == u.qualifiedName) = some t ∧
        u.IsReduct t := by
  obtain ⟨sorted, all, hbreak, hreducts⟩ := exists_isReduct_arrange h
  have hperm := DependencyGraph.perm_of_sort (breakCycles_ok hbreak).1
  have hsubset : sorted ⊆ tables.map Table.qualifiedName :=
    fun n hn => mem_nodes_graph.mp (hperm.mem_iff.mp hn)
  have hmap : arranged.map Table.qualifiedName = sorted := by
    rw [Table.map_qualifiedName_of_forall₂ hreducts, map_qualifiedName_arrange hsubset]
  refine ⟨?_, fun n => ?_, fun u hu => ?_⟩
  · rw [hmap]
    exact hperm.nodup_iff.mpr (nodup_nodes_graph tables all)
  · rw [hmap, hperm.mem_iff, mem_nodes_graph]
  · obtain ⟨t, ht, hreduct⟩ := exists_of_forall₂_left hreducts hu
    obtain ⟨n, -, hfind⟩ := List.mem_filterMap.mp ht
    have hname := List.find?_some hfind
    rw [hreduct.qualifiedName_eq, eq_of_beq hname]
    exact ⟨t, hfind, hreduct⟩

/-- If the columns of each table have different names, it is just the deferred keys that are left
out. -/
theorem exists_perm_leavingOut_of_order (hnames : (tables.map Table.qualifiedName).Nodup)
    (hcolumns : ∀ t ∈ tables, (t.columns.map (·.name)).Nodup)
    (h : order tables forward = .ok (arranged, deferred)) :
    ∃ us : List Table, us.Perm tables ∧ arranged = us.map (Table.leavingOut deferred) := by
  obtain ⟨sorted, all, hbreak, hcases⟩ := order_ok h
  have hperm := perm_arrange hnames (perm_of_breakCycles hnames hbreak)
  refine ⟨arrange tables sorted, hperm, ?_⟩
  rcases hcases with ⟨-, rfl, rfl⟩ | ⟨-, rfl, rfl⟩
  · simp
  · refine foldl_leaveOut_eq_map _ ?_ fun t ht => hcolumns t (hperm.mem_iff.mp ht)
    exact (hperm.map _).nodup_iff.mpr hnames

/-- The deferred keys are breakable keys of the tables, no two of them of one column. -/
theorem breakable_of_order (h : order tables forward = .ok (arranged, deferred)) :
    (∀ d ∈ deferred, ∃ t ∈ tables, d ∈ t.breakable) ∧
      (deferred.map fun d => (d.table, d.column)).Nodup := by
  obtain ⟨sorted, all, hbreak, hcases⟩ := order_ok h
  obtain ⟨-, new, hall, hnew, hnodup⟩ := breakCycles_ok hbreak
  rw [List.nil_append] at hall
  rcases hcases with ⟨-, rfl, -⟩ | ⟨-, rfl, -⟩
  · simp
  · subst hall
    exact ⟨fun d hd => List.mem_flatMap.mp (hnew d hd), hnodup⟩

/-- Nothing is deferred where a table may reference a later one. -/
theorem deferred_eq_nil_of_order (h : order tables true = .ok (arranged, deferred)) :
    deferred = [] := by
  obtain ⟨_, _, -, ⟨-, hnil, -⟩ | ⟨hfalse, -⟩⟩ := order_ok h
  · exact hnil
  · cases hfalse

/-- **A key that stays leads backwards,** if the columns of its table have different names. It leads
to its own table, to an earlier one, or to none of the tables. -/
theorem references_of_order (hnames : (tables.map Table.qualifiedName).Nodup)
    (h : order tables false = .ok (arranged, deferred)) {pre post : List Table} {u : Table}
    (hu : arranged = pre ++ u :: post) (hcolumns : (u.columns.map (·.name)).Nodup) {c : Column}
    (hc : c ∈ u.columns) {fk : ForeignKey} (hfk : c.references = some fk) :
    fk.table = u.qualifiedName ∨ fk.table ∈ pre.map Table.qualifiedName ∨
      fk.table ∉ arranged.map Table.qualifiedName := by
  obtain ⟨sorted, all, hbreak, ⟨hfalse, -⟩ | ⟨-, rfl, rfl⟩⟩ := order_ok h
  · cases hfalse
  have hsorted := perm_of_breakCycles hnames hbreak
  have hperm := perm_arrange hnames hsorted
  have hmap : (deferred.foldl leaveOut (arrange tables sorted)).map Table.qualifiedName =
      sorted := by
    rw [Table.map_qualifiedName_of_forall₂ (isReduct_foldl_leaveOut deferred _),
      map_qualifiedName_arrange hsorted.subset]
  by_contra hnot
  simp only [not_or, not_not] at hnot
  obtain ⟨hself, hpre, hmem⟩ := hnot
  -- the target comes later, so the sort saw no edge to it
  have hpost : fk.table ∈ post.map Table.qualifiedName := by
    rw [hu, List.map_append, List.map_cons, List.mem_append, List.mem_cons] at hmem
    exact (hmem.resolve_left hpre).resolve_left hself
  have hpair := DependencyGraph.pairwise_of_sort (breakCycles_ok hbreak).1
  rw [← hmap, hu, List.map_append, List.map_cons] at hpair
  have hedge := (List.pairwise_cons.mp (List.pairwise_append.mp hpair).2.1).1 _ hpost
  -- yet the key is not deferred
  obtain ⟨t, ht, hleft⟩ := exists_of_forall₂_left
    (forall₂_foldl_leaveOut deferred ((hperm.map _).nodup_iff.mpr hnames))
    (show u ∈ deferred.foldl leaveOut (arrange tables sorted) by rw [hu]; simp)
  obtain rfl := hleft hcolumns
  obtain ⟨c', hc', rfl⟩ := List.mem_map.mp hc
  have hcovers : Deferral.covers deferred t.qualifiedName c'.name = false := by
    rw [← Bool.not_eq_true]
    intro hcovers
    rw [Column.leavingOut, if_pos hcovers] at hfk
    cases hfk
  rw [Column.leavingOut, if_neg (by simp [hcovers])] at hfk
  rw [hmap] at hmem
  have hdep := (dependsOn_graph hnames).mpr ⟨Ne.symm hself, hsorted.mem_iff.mp hmem, t,
    hperm.mem_iff.mp ht, rfl, Table.mem_dependencies.mpr ⟨c', hc', fk, hfk, hcovers, rfl⟩⟩
  rw [hedge] at hdep
  cases hdep

end TableOrder

end AdditiveSchema
