import AdditiveSchema.Proofs.ChangeOrder
import AdditiveSchema.Proofs.Dependency
import AdditiveSchema.Proofs.List
import Mathlib.Logic.Relation

/-!
# New columns behind those that they reference

A new column whose foreign key leads to another new column must be added after it. The references
between the new columns are sorted for this, all at once. If they run in no circle, every new column
comes behind those that it references. If they do, even between columns that have nothing to do with
the others, all new columns stay in the order in which they were found, and a column may come before
one that it references.

## Main definitions

* `ChangeOrder.References` : a new column has a foreign key to another one.
* `ChangeOrder.IsReferencedFirst` : new columns come behind those that they reference, unless these
  depend on them in turn.
* `ChangeOrder.HasCircle` : references run in a circle.

## Main results

* `ChangeOrder.exists_sort_graph_iff` : when the new columns can be sorted.
* `ChangeOrder.isReferencedFirst_orderColumns_iff` : the new columns in order.
* `order_isReferencedFirst_iff` : all changes in order.
-/

namespace AdditiveSchema

open Relation (TransGen)

/-- The name of the column that the foreign key of a column leads to. -/
def Column.target? (c : Column) : Option ColumnName :=
  c.references.map fun fk => ⟨fk.table, fk.column⟩

namespace ChangeOrder

/-- A new column of the one name has a foreign key to the other name. -/
def References (columns : List (ColumnName × Column)) (x y : ColumnName) : Prop :=
  ∃ c, (x, c) ∈ columns ∧ c.target? = some y

/-- A column references one that is added after it only if that one depends on it in turn. -/
def IsReferencedFirst (columns : List (ColumnName × Column)) : Prop :=
  columns.Pairwise fun a b => a.2.target? = some b.1 → TransGen (References columns) b.1 a.1

/-- The references between some of the new columns run in a circle. -/
def HasCircle (columns : List (ColumnName × Column)) : Prop :=
  ∃ circle ⊆ columns.map Prod.fst, IsCircle (References columns) circle

variable {columns : List (ColumnName × Column)}

/-! ### The graph of the references -/

theorem graph_eq (columns : List (ColumnName × Column)) :
    graph columns = (columns.filterMap fun a => a.2.target?.map (a.1, ·)).foldl
        (fun g e => g.addDependency e.1 e.2) (columns.foldl (fun g a => g.addNode a.1) {}) := by
  rw [graph, List.foldl_filterMap]
  congr 1
  funext g ⟨name, c⟩
  cases hc : c.references <;> simp only [Column.target?, hc, Option.map_none, Option.map_some]

theorem mem_nodes_graph {x : ColumnName} :
    x ∈ (graph columns).nodes ↔ x ∈ columns.map Prod.fst := by
  rw [graph_eq, DependencyGraph.nodes_foldl_addDependency, DependencyGraph.mem_nodes_foldl_addNode]
  simp only [List.not_mem_nil, false_or]

theorem dependsOn_graph {x y : ColumnName} :
    (graph columns).dependsOn x y = true ↔
      References columns x y ∧ x ≠ y ∧ y ∈ columns.map Prod.fst := by
  rw [graph_eq, DependencyGraph.dependsOn_foldl_addDependency,
    DependencyGraph.dependsOn_foldl_addNode, DependencyGraph.mem_nodes_foldl_addNode,
    DependencyGraph.mem_nodes_foldl_addNode]
  simp only [DependencyGraph.dependsOn, List.contains_nil, Bool.false_eq_true, false_or,
    List.not_mem_nil, List.mem_filterMap, Option.map_eq_some_iff, Prod.mk.injEq, Prod.exists]
  constructor
  · rintro ⟨⟨x', c, hc, y', htarget, rfl, rfl⟩, hne, -, hy⟩
    exact ⟨⟨c, hc, htarget⟩, hne, hy⟩
  · rintro ⟨⟨c, hc, htarget⟩, hne, hy⟩
    exact ⟨⟨x, c, hc, y, htarget, rfl, rfl⟩, hne, List.mem_map_of_mem hc, hy⟩

/-- **When the new columns can be sorted:** their references run in no circle. -/
theorem exists_sort_graph_iff :
    (∃ names, (graph columns).sort = .ok names) ↔ ¬HasCircle columns := by
  have hself (x : ColumnName) : (graph columns).dependsOn x x = false := by
    rw [← Bool.not_eq_true, dependsOn_graph]
    exact fun h => h.2.1 rfl
  have hnodes (x y : ColumnName) (h : (graph columns).dependsOn x y = true) :
      x ∈ (graph columns).nodes := by
    obtain ⟨⟨c, hc, -⟩, -⟩ := dependsOn_graph.mp h
    exact mem_nodes_graph.mpr (List.mem_map_of_mem hc)
  rw [DependencyGraph.exists_sort_eq_ok_iff hself hnodes, HasCircle, exists_isCircle_iff,
    not_iff_not]
  constructor
  · rintro ⟨stuck, hsub, hne, hnext⟩
    refine ⟨stuck, fun x hx => mem_nodes_graph.mp (hsub hx), hne, fun x hx => ?_⟩
    obtain ⟨y, hy, hxy, hyx⟩ := hnext x hx
    exact ⟨y, hy, (dependsOn_graph.mp hxy).1, hyx⟩
  · rintro ⟨stuck, hsub, hne, hnext⟩
    refine ⟨stuck, fun x hx => mem_nodes_graph.mpr (hsub hx), hne, fun x hx => ?_⟩
    obtain ⟨y, hy, hxy, hyx⟩ := hnext x hx
    exact ⟨y, hy, dependsOn_graph.mpr ⟨hxy, hyx.symm, hsub hy⟩, hyx⟩

/-! ### New columns in order -/

theorem perm_arrange (names : List ColumnName) (columns : List (ColumnName × Column)) :
    (arrange names columns).Perm columns :=
  List.mergeSort_perm _ _

theorem pairwise_idxOf_arrange (names : List ColumnName) (columns : List (ColumnName × Column)) :
    (arrange names columns).Pairwise fun a b => names.idxOf a.1 ≤ names.idxOf b.1 :=
  pairwise_mergeSort_le (fun a => names.idxOf a.1) columns

/-- **New columns that can be sorted** come behind all others that they reference. -/
theorem pairwise_target?_of_sort {names : List ColumnName} (h : (graph columns).sort = .ok names) :
    (arrange names columns).Pairwise fun a b => a.2.target? = some b.1 → b.1 = a.1 := by
  have hperm := perm_arrange names columns
  refine (pairwise_idxOf_arrange names columns).imp_of_mem fun {a b} ha hb hle htarget => ?_
  by_contra hne
  have hdep : (graph columns).dependsOn a.1 b.1 = true :=
    dependsOn_graph.mpr ⟨⟨a.2, hperm.mem_iff.mp ha, htarget⟩, fun heq => hne heq.symm,
      List.mem_map_of_mem (hperm.mem_iff.mp hb)⟩
  have hnames {x : ColumnName × Column} (hx : x ∈ arrange names columns) :
      names.idxOf x.1 < names.length := by
    rw [List.idxOf_lt_length_iff, (DependencyGraph.perm_of_sort h).mem_iff, mem_nodes_graph]
    exact List.mem_map_of_mem (hperm.mem_iff.mp hx)
  rcases Nat.lt_or_eq_of_le hle with hlt | heq
  · have hfalse := List.pairwise_iff_getElem.mp (DependencyGraph.pairwise_of_sort h) _ _ (hnames ha)
      (hnames hb) hlt
    rw [List.getElem_idxOf, List.getElem_idxOf, hdep] at hfalse
    cases hfalse
  · exact hne ((List.idxOf_inj (List.idxOf_lt_length_iff.mp (hnames ha))).mp heq).symm

theorem References.of_perm {columns' : List (ColumnName × Column)} (h : columns'.Perm columns) :
    References columns' = References columns := by
  funext x y
  exact propext (exists_congr fun c => and_congr_left fun _ => h.mem_iff)

/-- **The new columns in order.** Where references run in a circle, all new columns stay as they
are. Where they do not, each comes behind those that it references. -/
theorem isReferencedFirst_orderColumns_iff :
    IsReferencedFirst (orderColumns columns) ↔ ¬HasCircle columns ∨ IsReferencedFirst columns := by
  unfold orderColumns
  split
  · rename_i names hsort
    have hcircle : ¬HasCircle columns := exists_sort_graph_iff.mp ⟨names, hsort⟩
    have hperm := perm_arrange names columns
    refine iff_of_true ?_ (Or.inl hcircle)
    rw [IsReferencedFirst, References.of_perm hperm]
    refine (pairwise_target?_of_sort hsort).imp_of_mem fun {a b} ha _ h htarget => ?_
    -- a column that references itself depends on itself
    have hself := h htarget
    rw [hself] at htarget ⊢
    exact .single ⟨a.2, hperm.mem_iff.mp ha, htarget⟩
  · rename_i members hsort
    have hcircle : HasCircle columns := by
      by_contra h
      obtain ⟨names, hnames⟩ := exists_sort_graph_iff.mpr h
      cases hsort.symm.trans hnames
    simp only [hcircle, not_true, false_or]

theorem orderColumns_of_hasCircle (h : HasCircle columns) : orderColumns columns = columns := by
  unfold orderColumns
  split
  · rename_i names hsort
    exact absurd h (exists_sort_graph_iff.mp ⟨names, hsort⟩)
  · rfl

/-- References run in no circle if each leads to a column that has none itself. -/
theorem not_hasCircle (h : ∀ a ∈ columns, ∀ b ∈ columns, a.2.target? = some b.1 →
    b.2.target? = none) : ¬HasCircle columns := by
  rintro ⟨circle, -, hcircle⟩
  obtain ⟨x, hx⟩ := List.exists_mem_of_ne_nil circle hcircle.isStuck.ne_nil
  obtain ⟨y, hy, ⟨c, hc, hxy⟩, -⟩ := hcircle.isStuck.exists_next x hx
  obtain ⟨z, -, ⟨d, hd, hyz⟩, -⟩ := hcircle.isStuck.exists_next y hy
  exact Option.some_ne_none z (hyz.symm.trans (h (x, c) hc (y, d) hd hxy))

/-- A column that comes before one that it references, and on which that one does not depend. -/
theorem not_isReferencedFirst_cons {a b : ColumnName × Column} (hb : b ∈ columns)
    (htarget : a.2.target? = some b.1)
    (hlast : ∀ c ∈ a :: columns, c.1 = b.1 → c.2.target? = none) :
    ¬IsReferencedFirst (a :: columns) := by
  intro h
  obtain ⟨y, ⟨c, hc, hy⟩, -⟩ :=
    Relation.TransGen.head'_iff.mp ((List.pairwise_cons.mp h).1 b hb htarget)
  rw [hlast _ hc rfl] at hy
  cases hy

/-! ### All changes in order -/

theorem column_of_mem_newColumns {changes : List Action} {a : ColumnName × Column}
    (h : a ∈ newColumns changes) : a.1.column = a.2.name := by
  obtain ⟨change, -, hcolumn⟩ := List.mem_filterMap.mp h
  cases change with
  | createColumn =>
    cases hcolumn
    rfl
  | createTable | createConstraint | createIndex | addForeignKey => cases hcolumn

/-- Columns are taken out of the actions that add them. -/
theorem newColumns_map_createColumn (h : ∀ a ∈ columns, a.1.column = a.2.name) :
    newColumns (columns.map fun a => .createColumn a.1.table a.2) = columns := by
  rw [newColumns, List.filterMap_map]
  refine (List.filterMap_congr fun a ha => ?_).trans List.filterMap_some
  simp only [Function.comp_apply, ← h a ha]

theorem newColumns_filter_eq_nil {changes : List Action} {p : Action → Bool}
    (h : ∀ table c, p (.createColumn table c) = false) : newColumns (changes.filter p) = [] := by
  refine List.filterMap_eq_nil_iff.mpr fun a ha => ?_
  cases a with
  | createColumn table c =>
    exact absurd (List.mem_filter.mp ha).2 (Bool.eq_false_iff.mp (h table c))
  | createTable | createConstraint | createIndex | addForeignKey => rfl

/-- **The new columns of the changes in order** are those of the changes, in their order. -/
theorem newColumns_order (changes : List Action) :
    newColumns (order changes) = orderColumns (newColumns changes) := by
  have hcolumns : newColumns ((orderColumns (newColumns changes)).map fun a =>
      .createColumn a.1.table a.2) = orderColumns (newColumns changes) :=
    newColumns_map_createColumn fun a ha =>
      column_of_mem_newColumns ((perm_orderColumns _).mem_iff.mp ha)
  have happend (as bs : List Action) : newColumns (as ++ bs) = newColumns as ++ newColumns bs :=
    List.filterMap_append
  rw [order, happend, happend, hcolumns, newColumns_filter_eq_nil fun _ _ => rfl,
    newColumns_filter_eq_nil fun _ _ => rfl, List.append_nil, List.append_nil]

/-- Changes that add no columns keep their order among those of their kind. -/
theorem filter_order (changes : List Action) :
    (order changes).filter isConstraint = changes.filter isConstraint ∧
      (order changes).filter isOther = changes.filter isOther := by
  have hcolumns {p : Action → Bool} (h : ∀ table c, p (.createColumn table c) = false) :
      ((orderColumns (newColumns changes)).map fun a =>
        Action.createColumn a.1.table a.2).filter p = [] := by
    rw [List.filter_eq_nil_iff]
    intro a ha
    obtain ⟨x, -, rfl⟩ := List.mem_map.mp ha
    exact Bool.eq_false_iff.mp (h x.1.table x.2)
  have hkinds (a : Action) : (isConstraint a && isOther a) = false := by
    cases a <;> rfl
  constructor
  · rw [order, List.filter_append, List.filter_append, hcolumns fun _ _ => rfl, List.filter_filter,
      List.filter_filter]
    simp only [hkinds, Bool.and_self, List.filter_false, List.append_nil, List.nil_append]
  · rw [order, List.filter_append, List.filter_append, hcolumns fun _ _ => rfl, List.filter_filter,
      List.filter_filter]
    simp only [Bool.and_comm, hkinds, Bool.and_self, List.filter_false, List.nil_append]

end ChangeOrder

open ChangeOrder

/-- **The order of changes.** Ordering the changes neither loses nor doubles one; columns come
before constraints and constraints before indices, and the last two keep their order. The new
columns come behind those that they reference, unless these depend on them in turn, just if no
references between new columns run in a circle or the changes listed them like that: with a circle,
all of them stay in their order. -/
theorem order_isReferencedFirst_iff {changes : List Action} (h : ∀ a ∈ changes, a.isChange = true) :
    (order changes).Perm changes ∧ (order changes).Pairwise (fun a b => a.rank ≤ b.rank) ∧
    (order changes).filter isConstraint = changes.filter isConstraint ∧
    (order changes).filter isOther = changes.filter isOther ∧
    (HasCircle (newColumns changes) → newColumns (order changes) = newColumns changes) ∧
    (IsReferencedFirst (newColumns (order changes)) ↔
      ¬HasCircle (newColumns changes) ∨ IsReferencedFirst (newColumns changes)) := by
  obtain ⟨hconstraints, hothers⟩ := filter_order changes
  rw [newColumns_order]
  exact ⟨perm_order changes, pairwise_rank_order h, hconstraints, hothers,
    orderColumns_of_hasCircle, isReferencedFirst_orderColumns_iff⟩

/-- A column with a foreign key to another one. -/
def referringColumn (name table column : String) : Column where
  name := name
  references := some { table := ⟨"public", table⟩, column := column }

/-- Films name their language by its code, and languages have codes only from now on. -/
def languageOfFilm : List Action :=
  [.createColumn ⟨"public", "film"⟩ (referringColumn "language_code" "language" "code"),
    .createColumn ⟨"public", "language"⟩ { name := "code" }]

/-- Staff and stores share their codes. -/
def codesOfStaffAndStore : List Action :=
  [.createColumn ⟨"public", "staff"⟩ (referringColumn "code" "store" "code"),
    .createColumn ⟨"public", "store"⟩ (referringColumn "code" "staff" "code")]

/-- On their own, the codes of languages are added before films refer to them. -/
theorem order_isReferencedFirst_iff_languageOfFilm :
    ¬IsReferencedFirst (newColumns languageOfFilm) ∧
      IsReferencedFirst (newColumns (order languageOfFilm)) := by
  have hchanges : ∀ a ∈ languageOfFilm, a.isChange = true := by decide
  obtain ⟨-, -, -, -, -, hfirst⟩ := order_isReferencedFirst_iff hchanges
  refine ⟨not_isReferencedFirst_cons List.mem_cons_self rfl (by decide), hfirst.mpr (Or.inl ?_)⟩
  exact not_hasCircle (by decide)

/-- With the codes of staff and stores, which reference each other, films refer to the codes of
languages before these are there. -/
theorem order_strandsLanguageOfFilm :
    ∃ changes, changes = languageOfFilm ++ codesOfStaffAndStore ∧
      (∀ a ∈ changes, a.isChange = true) ∧ ¬IsReferencedFirst (newColumns (order changes)) := by
  refine ⟨_, rfl, by decide, ?_⟩
  have hcircle : HasCircle (newColumns (languageOfFilm ++ codesOfStaffAndStore)) := by
    refine ⟨[⟨⟨"public", "staff"⟩, "code"⟩, ⟨⟨"public", "store"⟩, "code"⟩], by decide,
      isCircle_pair (by decide) ?_ ?_⟩
    · exact ⟨referringColumn "code" "store" "code", by decide, rfl⟩
    · exact ⟨referringColumn "code" "staff" "code", by decide, rfl⟩
  rw [newColumns_order, orderColumns_of_hasCircle hcircle]
  exact not_isReferencedFirst_cons List.mem_cons_self rfl (by decide)

end AdditiveSchema
