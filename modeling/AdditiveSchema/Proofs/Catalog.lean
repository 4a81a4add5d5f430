import AdditiveSchema.Catalog
import AdditiveSchema.Proofs.Keyed
import AdditiveSchema.Proofs.Table.Folding

/-!
# Catalogs of tables in normal form

A catalog holds each table under its name with the schema filled in, so looking a name up after an
insertion finds the new table under its own name and the old one under any other. In a catalog
whose constraints name only columns of their own tables, inserting a table again after it gained a
column changes nothing else, because no constraint can fold any more.

## Main definitions

* `Table.IsNormal` : all schemas are filled in and no constraint ever folds.
* `Catalog.IsNormal` : the tables are sorted by name and in normal form.

## Main results

* `Catalog.table?_insert` : what an insertion does to a look-up.
* `Catalog.isNormal_ofTables` : catalogs built by insertion are in normal form.
-/

namespace AdditiveSchema

/-- All schemas of the table are filled in, and none of its constraints ever folds. -/
structure Table.IsNormal (d : String) (t : Table) : Prop where
  resolve_eq : t.resolve d = t
  neverFolds : ∀ k ∈ t.constraints, Table.NeverFolds t.name k

/-- A table of the same name is in normal form, too, if its schemas are filled in and none of its
constraints ever folds. -/
theorem Table.IsNormal.of_parts {d : String} {g g' : Table} (hg : g.IsNormal d)
    (hname : g'.qualifiedName = g.qualifiedName)
    (hcolumns : ∀ c ∈ g'.columns, resolveReference g.schema c = c)
    (hconstraints : ∀ k ∈ g'.constraints, NeverFolds g.name k)
    (hindices : ∀ i ∈ g'.indices, i.nameIn g.schema = i.qualifiedName) : g'.IsNormal d := by
  have hschema : g'.schema = g.schema := congrArg QualifiedName.schema hname
  have hname' : g'.name = g.name := congrArg QualifiedName.name hname
  refine ⟨resolve_eq_self_iff.mpr ⟨?_, ?_, ?_⟩, ?_⟩
  · rw [hname]
    exact (resolve_eq_self_iff.mp hg.resolve_eq).1
  · rwa [hschema]
  · rwa [hschema]
  · rwa [hname']

namespace Catalog

@[simp] theorem qualifiedName_normalize (d : String) (t : Table) :
    (normalize d t).qualifiedName = t.qualifiedName.resolve d :=
  Table.qualifiedName_resolve d t

theorem normalize_eq_self {d : String} {t : Table} (h : t.IsNormal d) : normalize d t = t := by
  rw [normalize, h.resolve_eq, Table.foldKeys_eq_self h.neverFolds]

theorem resolve_normalize (d : String) (t : Table) :
    (normalize d t).resolve d = normalize d t := by
  rw [normalize, ← Table.foldKeys_resolve, Table.resolve_resolve]

/-- **A table is brought to the form of the catalog once.** -/
@[simp] theorem normalize_normalize (d : String) (t : Table) :
    normalize d (normalize d t) = normalize d t := by
  rw [normalize, resolve_normalize]
  exact Table.foldKeys_foldKeys _

/-- A table brought to the form of the catalog stays in it, if its constraints name only columns
of it. -/
theorem isNormal_normalize {d : String} {t : Table}
    (hown : (normalize d t).ConstrainsOwnColumns) : (normalize d t).IsNormal d := by
  refine ⟨resolve_normalize d t, fun k hk => ?_⟩
  obtain ⟨-, hfolds⟩ := Table.mem_constraints_foldKeys.mp hk
  rw [← Table.foldsInto?_congr (Table.map_name_columns_foldKeys (t.resolve d)) k] at hfolds
  exact Table.neverFolds_of_own hfolds (hown k hk)

/-! ### Looking tables up -/

theorem mem_of_table? {c : Catalog} {n : QualifiedName} {t : Table} (h : c.table? n = some t) :
    t ∈ c.tables :=
  List.mem_of_find?_eq_some h

theorem qualifiedName_of_table? {c : Catalog} {n : QualifiedName} {t : Table}
    (h : c.table? n = some t) : t.qualifiedName = n.resolve c.defaultSchema := by
  have hkey := List.find?_some h
  exact eq_of_beq hkey

theorem name_of_table? {c : Catalog} {n : QualifiedName} {t : Table} (h : c.table? n = some t) :
    t.name = n.name :=
  (congrArg QualifiedName.name (qualifiedName_of_table? h)).trans (QualifiedName.name_resolve _ n)

theorem table?_resolve (c : Catalog) (n : QualifiedName) :
    c.table? (n.resolve c.defaultSchema) = c.table? n := by
  rw [table?, QualifiedName.resolve_resolve_self, table?]

theorem require_eq_ok_iff {c : Catalog} {n : QualifiedName} {t : Table} :
    c.require n = .ok t ↔ c.table? n = some t := by
  unfold require
  split <;> simp_all

/-- **What an insertion does to a look-up.** Only the name of the new table is touched. -/
theorem table?_insert (c : Catalog) (t : Table) (n : QualifiedName) :
    (c.insert t).table? n =
      if t.qualifiedName.resolve c.defaultSchema = n.resolve c.defaultSchema then
        some (normalize c.defaultSchema t)
      else c.table? n := by
  have h : (c.insert t).table? n = _ := Keyed.find?_insert (n.resolve c.defaultSchema)
    (normalize c.defaultSchema t) c.tables
  simp only [qualifiedName_normalize, beq_iff_eq] at h
  exact h

@[simp] theorem defaultSchema_insert (c : Catalog) (t : Table) :
    (c.insert t).defaultSchema = c.defaultSchema := rfl

/-! ### Catalogs in normal form -/

/-- The tables are sorted by their names and in normal form. -/
structure IsNormal (c : Catalog) : Prop where
  sorted : Keyed.IsSorted Table.qualifiedName c.tables
  table : ∀ t ∈ c.tables, t.IsNormal c.defaultSchema

theorem IsNormal.insert {c : Catalog} (h : c.IsNormal) {t : Table}
    (ht : t.IsNormal c.defaultSchema) : (c.insert t).IsNormal := by
  refine ⟨h.sorted.insert _, fun u hu => ?_⟩
  rcases Keyed.mem_of_mem_insert hu with rfl | hu
  · rwa [normalize_eq_self ht]
  · exact h.table u hu

/-- A table in normal form is inserted as it is. -/
theorem table?_insert_of_isNormal {c : Catalog} {t : Table} (ht : t.IsNormal c.defaultSchema)
    {n : QualifiedName} (hn : n.resolve c.defaultSchema = n) :
    (c.insert t).table? n = if t.qualifiedName = n then some t else c.table? n := by
  rw [table?_insert, hn, normalize_eq_self ht, ← Table.qualifiedName_resolve, ht.resolve_eq]

@[simp] theorem defaultSchema_ofTables (d : String) (tables : List Table) :
    (ofTables d tables).defaultSchema = d := by
  have h (c : Catalog) : (tables.foldl insert c).defaultSchema = c.defaultSchema := by
    induction tables generalizing c with
    | nil => rfl
    | cons t ts ih => rw [List.foldl_cons, ih, defaultSchema_insert]
  exact h _

theorem ofTables_concat (d : String) (tables : List Table) (t : Table) :
    ofTables d (tables ++ [t]) = (ofTables d tables).insert t := by
  simp only [ofTables, List.foldl_append, List.foldl_cons, List.foldl_nil]

/-- A catalog keeps the tables inserted in normal form and by their names. -/
theorem ofTables_eq (d : String) (tables : List Table) :
    ofTables d tables = ⟨d, Keyed.ofList Table.qualifiedName (tables.map (normalize d))⟩ := by
  induction tables using List.reverseRecOn with
  | nil => rfl
  | append_singleton tables t ih =>
    rw [ofTables_concat, ih, insert, List.map_append, List.map_cons, List.map_nil,
      Keyed.ofList_concat]

theorem isSorted_ofTables (d : String) (tables : List Table) :
    Keyed.IsSorted Table.qualifiedName (ofTables d tables).tables := by
  rw [ofTables_eq]
  exact Keyed.isSorted_ofList _

theorem mem_tables_ofTables {d : String} {tables : List Table} {t : Table}
    (h : t ∈ (ofTables d tables).tables) : ∃ u ∈ tables, t = normalize d u := by
  rw [ofTables_eq] at h
  obtain ⟨u, hu, rfl⟩ := List.mem_map.mp (Keyed.mem_of_mem_ofList h)
  exact ⟨u, hu, rfl⟩

/-- Of the tables of one name, a catalog holds the one that was inserted last. -/
theorem table?_ofTables {d : String} {before after : List Table} {t : Table}
    (hlast : ∀ u ∈ after, u.qualifiedName.resolve d ≠ t.qualifiedName.resolve d) :
    (ofTables d (before ++ t :: after)).table? t.qualifiedName = some (normalize d t) := by
  induction after using List.reverseRecOn with
  | nil => rw [ofTables_concat, table?_insert, if_pos rfl, defaultSchema_ofTables]
  | append_singleton after u ih =>
    have hu : u.qualifiedName.resolve d ≠ t.qualifiedName.resolve d := hlast u (by simp)
    rw [← List.cons_append, ← List.append_assoc, ofTables_concat, table?_insert,
      defaultSchema_ofTables, if_neg hu]
    exact ih fun v hv => hlast v (List.mem_append_left _ hv)

/-- **Catalogs built by insertion are in normal form**, if the constraints of each table name only
columns of it. -/
theorem isNormal_ofTables {d : String} {tables : List Table}
    (hown : ∀ t ∈ (ofTables d tables).tables, t.ConstrainsOwnColumns) :
    (ofTables d tables).IsNormal := by
  refine ⟨isSorted_ofTables d tables, fun t ht => ?_⟩
  obtain ⟨u, -, rfl⟩ := mem_tables_ofTables ht
  rw [defaultSchema_ofTables]
  exact isNormal_normalize (hown _ ht)

/-! ### The view of a catalog -/

/-- A table that is found is one of those that the view lists. -/
theorem contains_resolvedNames_of_table? {c : Catalog} {n : QualifiedName} {t : Table}
    (hn : n.resolve c.defaultSchema = n) (h : c.table? n = some t) :
    c.view.resolvedNames.contains n = true := by
  have ht := qualifiedName_of_table? h
  rw [hn] at ht
  refine List.contains_iff_mem.mpr (List.mem_map.mpr ⟨t.qualifiedName, ?_, by rw [ht]; exact hn⟩)
  exact List.mem_map_of_mem (mem_of_table? h)

/-- If the tables are sorted by their names, whose schemas are filled in, each table that the view
lists can be found. -/
theorem isSome_table?_of_contains {c : Catalog}
    (hsorted : Keyed.IsSorted Table.qualifiedName c.tables)
    (hresolve : ∀ t ∈ c.tables, t.qualifiedName.resolve c.defaultSchema = t.qualifiedName)
    {n : QualifiedName} (h : c.view.resolvedNames.contains n = true) :
    (c.table? n).isSome = true := by
  obtain ⟨m, hm, rfl⟩ := List.mem_map.mp (List.contains_iff_mem.mp h)
  obtain ⟨t, ht, rfl⟩ := List.mem_map.mp hm
  change (c.table? (t.qualifiedName.resolve c.defaultSchema)).isSome = true
  rw [hresolve t ht, table?, hresolve t ht, hsorted.find?_eq_some ht]
  rfl

/-- Catalogs built by insertion can be read. -/
theorem isSome_table?_ofTables {d : String} {tables : List Table} {n : QualifiedName}
    (h : (ofTables d tables).view.resolvedNames.contains n = true) :
    ((ofTables d tables).table? n).isSome = true := by
  refine isSome_table?_of_contains (isSorted_ofTables d tables) (fun t ht => ?_) h
  obtain ⟨u, -, rfl⟩ := mem_tables_ofTables ht
  rw [defaultSchema_ofTables, qualifiedName_normalize, QualifiedName.resolve_resolve_self]

/-- The view of a catalog in normal form lists just the tables that can be found. -/
theorem IsNormal.contains_resolvedNames {c : Catalog} (hc : c.IsNormal) {n : QualifiedName}
    (hn : n.resolve c.defaultSchema = n) :
    c.view.resolvedNames.contains n = (c.table? n).isSome := by
  rw [Bool.eq_iff_iff]
  constructor
  · refine isSome_table?_of_contains hc.sorted fun t ht => ?_
    rw [← Table.qualifiedName_resolve, (hc.table t ht).resolve_eq]
  · intro h
    obtain ⟨t, ht⟩ := Option.isSome_iff_exists.mp h
    exact contains_resolvedNames_of_table? hn ht

end Catalog

end AdditiveSchema
