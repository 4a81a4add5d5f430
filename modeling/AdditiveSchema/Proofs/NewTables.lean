import AdditiveSchema.Proofs.Declared
import AdditiveSchema.Proofs.ForeignKeys

/-!
# The creation of new tables

Two declared tables may have one name in the end: one that leaves its schema out, and one that is
declared in the default schema. Definitions are only compared by the names that they give, so both
are kept, and a plan creates just the first of them. This is the one way in which a plan loses
declared tables, and then it does not say so.

## Main definitions

* `Plan.CreatesFirst` : of the lacking tables, the first of each name is created.
* `Plan.CreatesAll` : all lacking tables are created, with all their columns.

## Main results

* `reconcile_createsAll_iff` : when a plan creates all lacking tables.
-/

namespace AdditiveSchema

open Reconcile

/-- The table that the action creates. -/
def Action.created? : Action → Option Table
  | .createTable t => some t
  | _ => none

namespace Plan

/-- The tables that the plan creates. -/
def created (p : Plan) : List Table :=
  p.actions.filterMap Action.created?

theorem mem_created {p : Plan} {u : Table} : u ∈ p.created ↔ .createTable u ∈ p.actions := by
  rw [created, List.mem_filterMap]
  constructor
  · rintro ⟨a, ha, hu⟩
    cases a with
    | createTable u' =>
      cases hu
      exact ha
    | createColumn | createConstraint | createIndex | addForeignKey => cases hu
  · intro ha
    exact ⟨_, ha, rfl⟩

/-- Of the lacking tables the first one of each name is created, with those of its indices that the
dialect can create; some of its columns may lack their foreign keys. -/
structure CreatesFirst (p : Plan) (s : DeclaredSchema) (c : Catalog) : Prop where
  nodup : (p.created.map Table.qualifiedName).Nodup
  mem_iff : ∀ n, n ∈ p.created.map Table.qualifiedName ↔
    n ∈ (c.absent (s.resolved c.defaultSchema)).map Table.qualifiedName
  first : ∀ u ∈ p.created, ∃ t,
    (c.absent (s.resolved c.defaultSchema)).find? (·.qualifiedName == u.qualifiedName) = some t ∧
      u.IsReduct (t.accepted s.dialect)

/-- As many tables are created as are lacking, and each column of a lacking table is created with a
table of its name; it may lack its foreign key. -/
structure CreatesAll (p : Plan) (s : DeclaredSchema) (c : Catalog) : Prop where
  length : p.created.length = (c.absent (s.resolved c.defaultSchema)).length
  columns : ∀ t ∈ c.absent (s.resolved c.defaultSchema), ∀ col ∈ t.columns,
    ∃ u, .createTable u ∈ p.actions ∧ u.qualifiedName = t.qualifiedName ∧
      ∃ e ∈ u.columns, e.IsReduct col

variable {p : Plan} {s : DeclaredSchema} {c : Catalog}

/-- Under their first tables, all names are met just if they are different. -/
theorem CreatesFirst.createsAll_iff (h : p.CreatesFirst s c) :
    p.CreatesAll s c ↔
      ((c.absent (s.resolved c.defaultSchema)).map Table.qualifiedName).Nodup := by
  constructor
  · intro hall
    have hsubperm := List.Nodup.subperm h.nodup fun n hn => (h.mem_iff n).mp hn
    have hperm := hsubperm.perm_of_length_le (by
      rw [List.length_map, List.length_map, hall.length])
    exact hperm.nodup_iff.mp h.nodup
  · intro hnames
    have hperm := (List.perm_ext_iff_of_nodup h.nodup hnames).mpr h.mem_iff
    refine ⟨by simpa using hperm.length_eq, fun t ht col hcol => ?_⟩
    obtain ⟨u, hu, hname⟩ := List.mem_map.mp ((h.mem_iff _).mpr (List.mem_map_of_mem ht))
    obtain ⟨t', hfind, hreduct⟩ := h.first u hu
    rw [hname, find?_key_eq_some hnames ht] at hfind
    cases hfind
    exact ⟨u, mem_created.mp hu, hname, exists_of_forall₂_right hreduct.columns hcol⟩

end Plan

namespace Reconcile

variable {s : DeclaredSchema} {c : Catalog} {detectDrift : Bool}

theorem created_planOf {created : List Table} {deferred : List Deferral} :
    (planOf s c detectDrift created deferred).created = created := by
  have hchanges : (changes s c).filterMap Action.created? = [] :=
    List.filterMap_eq_nil_iff.mpr fun a ha => by
      have := isChange_of_mem_changes ha
      cases a <;> first | rfl | cases this
  have hkeys : (deferred.map Deferral.action).filterMap Action.created? = [] := by
    rw [List.filterMap_map]
    exact List.filterMap_eq_nil_iff.mpr fun _ _ => rfl
  rw [Plan.created, planOf, List.filterMap_append, List.filterMap_append, hchanges, hkeys,
    List.append_nil, List.append_nil, List.filterMap_map]
  exact List.filterMap_some

/-- **Of the lacking tables, the first of each name is created.** -/
theorem createsFirst_of_reconcile {p : Plan} (h : reconcile c.view s detectDrift = .ok p) :
    p.CreatesFirst s c := by
  obtain ⟨-, created, deferred, horder, -, rfl⟩ := reconcile_eq_ok_iff.mp h
  obtain ⟨hnodup, hmem, hfirst⟩ := TableOrder.first_of_order horder
  refine ⟨?_, fun n => ?_, fun u hu => ?_⟩
  · rwa [created_planOf]
  · rw [created_planOf, hmem, newTables, List.map_map]
    rfl
  · rw [created_planOf] at hu
    obtain ⟨t', hfind, hreduct⟩ := hfirst u hu
    rw [newTables, List.find?_map] at hfind
    obtain ⟨t, ht, rfl⟩ := Option.map_eq_some_iff.mp hfind
    exact ⟨t, ht, hreduct⟩

/-- No table is created that exists already. -/
theorem table?_eq_none_of_createTable_mem {p : Plan} (h : reconcile c.view s detectDrift = .ok p)
    {u : Table} (hu : .createTable u ∈ p.actions) : c.table? u.qualifiedName = none := by
  have hname : u.qualifiedName ∈ p.created.map Table.qualifiedName :=
    List.mem_map_of_mem (Plan.mem_created.mpr hu)
  obtain ⟨t, ht, heq⟩ := List.mem_map.mp (((createsFirst_of_reconcile h).mem_iff _).mp hname)
  rw [← heq]
  exact Option.isNone_iff_eq_none.mp (List.mem_filter.mp ht).2

/-- If no two declared tables have the same name as they are declared, two lacking ones come to the
same name just if one of them leaves the default schema out and the other does not. -/
theorem nodup_absent_iff (hnames : (s.tables.map Table.qualifiedName).Nodup) :
    ((c.absent (s.resolved c.defaultSchema)).map Table.qualifiedName).Nodup ↔
      ∀ t ∈ s.tables, ∀ u ∈ s.tables, t.name = u.name → t.schema = "" →
        u.schema = c.defaultSchema → t = u ∨ (c.table? t.qualifiedName).isSome := by
  let lacking := s.tables.filter fun t => (c.table? t.qualifiedName).isNone
  have habsent : (c.absent (s.resolved c.defaultSchema)).map Table.qualifiedName =
      lacking.map fun t => t.qualifiedName.resolve c.defaultSchema := by
    rw [Catalog.absent, DeclaredSchema.resolved, List.filter_map, List.map_map]
    simp only [Function.comp_def, Table.qualifiedName_resolve, Catalog.table?_resolve, lacking]
  rw [habsent, List.nodup_map_iff_inj_on ((hnames.of_map _).filter _)]
  constructor
  · intro hinj t ht u hu hname hschema hdefault
    by_contra hnot
    obtain ⟨hne, hnone⟩ := not_or.mp hnot
    have hresolve : t.qualifiedName.resolve c.defaultSchema =
        u.qualifiedName.resolve c.defaultSchema :=
      QualifiedName.resolve_inj_iff.mpr (Or.inr ⟨hname, Or.inl ⟨hschema, hdefault⟩⟩)
    have hnone : (c.table? t.qualifiedName).isNone := by simpa using hnone
    have hnone' : (c.table? u.qualifiedName).isNone := by
      rwa [← Catalog.table?_resolve, ← hresolve, Catalog.table?_resolve]
    exact hne (hinj t (List.mem_filter.mpr ⟨ht, hnone⟩) u (List.mem_filter.mpr ⟨hu, hnone'⟩)
      hresolve)
  · intro h t ht u hu hresolve
    obtain ⟨ht, hnone⟩ := List.mem_filter.mp ht
    obtain ⟨hu, hnone'⟩ := List.mem_filter.mp hu
    rcases QualifiedName.resolve_inj_iff.mp hresolve with heq | ⟨hname, ⟨hs, hd⟩ | ⟨hs, hd⟩⟩
    · exact List.inj_on_of_nodup_map hnames ht hu heq
    · exact (h t ht u hu hname hs hd).resolve_right (by simpa using hnone)
    · exact ((h u hu t ht hname.symm hs hd).resolve_right (by simpa using hnone')).symm

end Reconcile

/-- **When a plan creates all lacking tables.** Of the lacking tables, a plan creates the first of
each name. It creates all of them, with all their columns, if and only if no table that leaves its
schema out and does not exist is declared a second time in the default schema. -/
theorem reconcile_createsAll_iff {d : Dialect} {policy : ModifierPolicy}
    {definitions : List TableDef} {s : DeclaredSchema}
    (hbuild : DeclaredSchema.build d policy definitions = .ok s) {got : Catalog}
    {detectDrift : Bool} {p : Plan} (h : reconcile got.view s detectDrift = .ok p) :
    p.CreatesFirst s got ∧
      (p.CreatesAll s got ↔
        ∀ t ∈ s.tables, ∀ u ∈ s.tables, t.name = u.name → t.schema = "" →
          u.schema = got.defaultSchema → t = u ∨ (got.table? t.qualifiedName).isSome) := by
  have hfirst := createsFirst_of_reconcile h
  refine ⟨hfirst, ?_⟩
  rw [hfirst.createsAll_iff, nodup_absent_iff (DeclaredSchema.nodup_names_of_build hbuild)]

/-- Films are declared twice, the second time in a schema that is given. -/
def filmsTwiceDefinitions (schema : String) : List TableDef := [
  { name := "film"
    columns := [{ field := "film_id", kind := .number, directive := "primarykey" }] },
  { name := "film"
    schema := schema
    columns := [
      { field := "film_id", kind := .number, directive := "primarykey" },
      { field := "title", kind := .string, directive := "notnull" }] }]

/-- What these definitions declare. -/
def filmsTwice (schema : String) : DeclaredSchema where
  dialect := .postgres
  tables := [
    { name := "film"
      columns := [
        { name := "film_id", columnType := "INT", kind := some .number, notNull := true,
          primaryKey := true }] },
    { name := "film"
      schema := schema
      columns := [
        { name := "film_id", columnType := "INT", kind := some .number, notNull := true,
          primaryKey := true },
        { name := "title", columnType := "TEXT", kind := some .string, notNull := true }] }]

/-- In two schemas, both tables are created. -/
theorem reconcile_createsAll_iff_filmsTwice :
    let c := Catalog.ofTables "public" []
    DeclaredSchema.build .postgres .warn (filmsTwiceDefinitions "archive") =
        .ok (filmsTwice "archive") ∧
      ∃ p, reconcile c.view (filmsTwice "archive") false = .ok p ∧
        p.CreatesAll (filmsTwice "archive") c := by
  intro c
  have hbuild : DeclaredSchema.build .postgres .warn (filmsTwiceDefinitions "archive") =
      .ok (filmsTwice "archive") := by
    decide +kernel
  have h : reconcile c.view (filmsTwice "archive") false = .ok
      { actions := ((filmsTwice "archive").resolved "public").map .createTable
        warnings := [] } := by
    decide +kernel
  exact ⟨hbuild, _, h, (reconcile_createsAll_iff hbuild h).2.mpr (by decide)⟩

/-- If the second schema is the default one, the second table is lost with its title, and no
warning says so. -/
theorem reconcile_losesTable_filmsTwice :
    let c := Catalog.ofTables "public" []
    DeclaredSchema.build .postgres .warn (filmsTwiceDefinitions "public") =
        .ok (filmsTwice "public") ∧
      ∃ p, reconcile c.view (filmsTwice "public") false = .ok p ∧ p.actions.length = 1 ∧
        p.warnings = [] ∧ ¬ p.CreatesAll (filmsTwice "public") c := by
  intro c
  have hbuild : DeclaredSchema.build .postgres .warn (filmsTwiceDefinitions "public") =
      .ok (filmsTwice "public") := by
    decide +kernel
  have h : reconcile c.view (filmsTwice "public") false = .ok
      { actions := [.createTable ((filmsTwice "public").resolved "public")[0]]
        warnings := [] } := by
    decide +kernel
  refine ⟨hbuild, _, h, rfl, rfl, fun hall => ?_⟩
  -- one table is created, but two are lacking
  exact absurd hall.length (by decide)

end AdditiveSchema
