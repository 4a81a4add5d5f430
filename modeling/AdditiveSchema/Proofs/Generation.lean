import AdditiveSchema.Proofs.CyclicDependency
import AdditiveSchema.Proofs.Exactness

/-!
# When generation fails

Indices and changes of existing tables that the dialect cannot create are left out of a plan, so
generation can only fail at a new table. It does if the table has no columns, or if one of its
columns has no definition, unless the table is a full text table of SQLite, of which nothing but the
names of its columns is written. Whoever holds a plan can therefore generate its statements.

## Main definitions

* `Table.HasFault` : why a dialect has no statement for a table.

## Main results

* `Dialect.isOk_createTable_iff_not_hasFault` : which tables have statements.
* `Reconcile.exists_created_of_generate` : generation fails at a new table.
* `reconcile_generate_iff` : when reconciliation fails in generation.
-/

namespace AdditiveSchema

open Reconcile

/-! ### Faults of tables -/

/-- The error says why the dialect has no statement for the table: it has no columns, or one of them
has no definition. A full text table is never at fault. -/
structure Table.HasFault (d : Dialect) (t : Table) (e : GenerateError) : Prop where
  not_isFullTextIn : ¬ t.IsFullTextIn d
  cause : t.columns = [] ∧ e = .emptyTable t.qualifiedName.toString ∨
    ∃ c ∈ t.columns, d.columnDefinition t.qualifiedName c = .error e

/-- The form that the dialects share fails for want of columns, at a column or at an index. -/
theorem Standard.exists_of_createTable_eq_error {d : Dialect}
    {definition : Column → Except GenerateError String}
    {index : Index → Except GenerateError Statement} {t : Table} {e : GenerateError}
    (h : createTable d definition index t = .error e) :
    t.columns = [] ∧ e = .emptyTable t.qualifiedName.toString ∨
      (∃ c ∈ t.columns, definition c = .error e) ∨ ∃ i ∈ t.indices, index i = .error e := by
  simp only [createTable, tableLines] at h
  split at h
  · rename_i hempty
    cases h
    exact Or.inl ⟨List.isEmpty_iff.mp hempty, rfl⟩
  rcases Except.bind_eq_error_iff.mp h with h | ⟨lines, -, h⟩
  · exact Or.inr (Or.inl (Except.exists_of_mapM_eq_error (Except.bind_pure_eq_error_iff.mp h)))
  · exact Or.inr (Or.inr (Except.exists_of_mapM_eq_error (Except.bind_pure_eq_error_iff.mp h)))

namespace Dialect

variable {d : Dialect} {t : Table} {e : GenerateError}

/-- A table without a statement has a fault, if the dialect can create its indices. -/
theorem hasFault_of_createTable_eq_error
    (hindices : ∀ i ∈ t.indices, (d.createIndex t.qualifiedName i).isOk = true)
    (h : d.createTable t = .error e) : t.HasFault d e := by
  have hfull : ¬ t.IsFullTextIn d := by
    intro hfull
    have hok := isOk_createTable_of_isFullTextIn hfull
    rw [h] at hok
    cases hok
  refine ⟨hfull, ?_⟩
  rw [createTable_of_not_isFullTextIn hfull] at h
  rcases Standard.exists_of_createTable_eq_error h with hempty | hcolumn | ⟨i, hi, he⟩
  · exact Or.inl hempty
  · exact Or.inr hcolumn
  · have hok := hindices i hi
    rw [he] at hok
    cases hok

/-- **Which tables have statements:** those without a fault, if the dialect can create their
indices. -/
theorem isOk_createTable_iff_not_hasFault
    (hindices : ∀ i ∈ t.indices, (d.createIndex t.qualifiedName i).isOk = true) :
    (d.createTable t).isOk = true ↔ ∀ e, ¬ t.HasFault d e := by
  constructor
  · rintro hok e ⟨hfull, hcause⟩
    rw [createTable_of_not_isFullTextIn hfull, Standard.isOk_createTable, Bool.and_eq_true,
      Bool.and_eq_true, Bool.not_eq_true', List.all_eq_true] at hok
    rcases hcause with ⟨hempty, -⟩ | ⟨c, hc, he⟩
    · rw [hempty] at hok
      cases hok.1.1
    · have hcolumn := hok.1.2 c hc
      rw [he] at hcolumn
      cases hcolumn
  · intro hnone
    cases h : d.createTable t with
    | ok statements => rfl
    | error e => exact absurd (hasFault_of_createTable_eq_error hindices h) (hnone e)

/-- Why a column has no definition does not depend on its foreign key. -/
theorem columnDefinition_withoutReference_eq_error_iff {table : QualifiedName} {c : Column} :
    d.columnDefinition table c.withoutReference = .error e ↔
      d.columnDefinition table c = .error e := by
  cases d with
  | postgres =>
    simp only [columnDefinition, Postgres.columnDefinition, Except.bind_pure_eq_error_iff,
      Postgres.dataType, Column.withoutReference]
  | mysql =>
    simp only [columnDefinition, MySql.columnDefinition]
    cases hmode : c.autoincrement <;> simp only [Column.withoutReference, hmode]
  | sqlite =>
    simp only [columnDefinition, Sqlite.columnDefinition, Except.bind_pure_eq_error_iff]
    rfl

end Dialect

namespace Table

variable {d : Dialect} {t u : Table} {e : GenerateError}

/-- Indices have no part in the faults of a table. -/
theorem hasFault_accepted : (t.accepted d).HasFault d e ↔ t.HasFault d e :=
  ⟨fun h => ⟨h.not_isFullTextIn, h.cause⟩, fun h => ⟨h.not_isFullTextIn, h.cause⟩⟩

theorem isOk_createIndex_of_mem_accepted {i : Index} (hi : i ∈ (t.accepted d).indices) :
    (d.createIndex (t.accepted d).qualifiedName i).isOk = true :=
  (List.mem_filter.mp hi).2

/-- Leaving foreign keys out of a table adds no fault. -/
theorem HasFault.of_isReduct (h : u.HasFault d e) (hu : u.IsReduct t) : t.HasFault d e := by
  have hfts5 : u.fts5 = t.fts5 := by rw [hu.rest]
  refine ⟨fun hfull => h.not_isFullTextIn ⟨hfull.1, hfts5 ▸ hfull.2⟩, ?_⟩
  rw [← hu.qualifiedName_eq]
  rcases h.cause with ⟨hempty, he⟩ | ⟨c, hc, he⟩
  · have hlength := hu.columns.length_eq
    rw [hempty, List.length_nil] at hlength
    exact Or.inl ⟨List.length_eq_zero_iff.mp hlength.symm, he⟩
  · obtain ⟨c', hc', hreduct⟩ := exists_of_forall₂_left hu.columns hc
    refine Or.inr ⟨c', hc', ?_⟩
    rcases hreduct with rfl | rfl
    · exact he
    · exact Dialect.columnDefinition_withoutReference_eq_error_iff.mp he

end Table

/-! ### Generation in reconciliation -/

/-- The statements of a plan fail at one of its actions. -/
theorem Plan.exists_of_statements_eq_error {d : Dialect} {p : Plan} {e : GenerateError}
    (h : p.statements d = .error e) : ∃ a ∈ p.actions, a.statements d = .error e :=
  Except.exists_of_mapM_eq_error (Except.map_eq_error_iff.mp h)

namespace Reconcile

variable {s : DeclaredSchema} {c : Catalog} {detectDrift : Bool} {e : GenerateError}

/-- **Generation fails at a new table,** if the existing tables can be read: the new tables were
arranged, and one of them has no statement. -/
theorem exists_created_of_generate
    (hread : ∀ t ∈ s.resolved c.defaultSchema, c.IsReadable t.qualifiedName)
    (h : reconcile c.view s detectDrift = .error (.generate e)) :
    ∃ created deferred,
      TableOrder.order (newTables s c) s.dialect.allowsForwardReferences =
        .ok (created, deferred) ∧
      ∃ u ∈ created, s.dialect.createTable u = .error e := by
  rw [reconcile_of_isReadable hread] at h
  rcases Except.bind_eq_error_iff.mp h with h | ⟨⟨created, deferred⟩, horder, h⟩
  · obtain ⟨_, -, heq⟩ := Except.mapError_eq_error_iff.mp h
    cases heq
  rw [Except.mapError_eq_ok_iff] at horder
  have hstatements := Except.bind_pure_eq_error_iff.mp h
  obtain ⟨_, hstatements, heq⟩ := Except.mapError_eq_error_iff.mp hstatements
  cases heq
  obtain ⟨a, ha, he⟩ := Plan.exists_of_statements_eq_error hstatements
  have hrefused : a.isAccepted s.dialect = false := by
    rw [Action.isAccepted, he]
    rfl
  obtain ⟨u, hu, rfl⟩ := exists_created_of_isAccepted_eq_false horder ha hrefused
  exact ⟨created, deferred, horder, u, hu, he⟩

/-- The error of a failed generation names a fault of a lacking table. -/
theorem exists_hasFault_of_generate
    (hnames : ((s.resolved c.defaultSchema).map Table.qualifiedName).Nodup)
    (hread : ∀ t ∈ s.resolved c.defaultSchema, c.IsReadable t.qualifiedName)
    (h : reconcile c.view s detectDrift = .error (.generate e)) :
    ∃ t ∈ c.absent (s.resolved c.defaultSchema), t.HasFault s.dialect e := by
  obtain ⟨created, deferred, horder, u, hu, he⟩ := exists_created_of_generate hread h
  obtain ⟨tables, hperm, hreducts⟩ := exists_perm_created hnames horder
  obtain ⟨t, ht, hut⟩ := exists_of_forall₂_left hreducts hu
  have hindices : ∀ i ∈ u.indices, (s.dialect.createIndex u.qualifiedName i).isOk = true := by
    intro i hi
    rw [hut.rest] at hi
    rw [hut.qualifiedName_eq]
    exact Table.isOk_createIndex_of_mem_accepted hi
  have hfault := Dialect.hasFault_of_createTable_eq_error hindices he
  exact ⟨t, hperm.mem_iff.mp ht, Table.hasFault_accepted.mp (hfault.of_isReduct hut)⟩

/-- Where the existing tables can be read, nothing is left to fail in reading. -/
theorem reconcile_ne_read (hread : ∀ t ∈ s.resolved c.defaultSchema, c.IsReadable t.qualifiedName)
    (cause : ReadError) : reconcile c.view s detectDrift ≠ .error (.read cause) := by
  intro h
  rw [reconcile_of_isReadable hread] at h
  rcases Except.bind_eq_error_iff.mp h with h | ⟨_, -, h⟩
  · obtain ⟨_, -, heq⟩ := Except.mapError_eq_error_iff.mp h
    cases heq
  · obtain ⟨_, -, heq⟩ := Except.mapError_eq_error_iff.mp (Except.bind_pure_eq_error_iff.mp h)
    cases heq

/-- There is no plan that would create a table with a fault. -/
theorem not_hasFault_of_reconcile_eq_ok {p : Plan}
    (hnames : ((s.resolved c.defaultSchema).map Table.qualifiedName).Nodup)
    (h : reconcile c.view s detectDrift = .ok p) {t : Table}
    (ht : t ∈ c.absent (s.resolved c.defaultSchema)) : ¬ t.HasFault s.dialect e := by
  obtain ⟨-, created, deferred, horder, hcreated, -⟩ := reconcile_eq_ok_iff.mp h
  have hok : (s.dialect.createTable (t.accepted s.dialect)).isOk = true :=
    (Dialect.isOk_createTable_of_order (nodup_newTables hnames) horder).mp hcreated _
      (List.mem_map_of_mem ht)
  rw [Dialect.isOk_createTable_iff_not_hasFault
    fun i => Table.isOk_createIndex_of_mem_accepted] at hok
  exact fun hfault => hok e (Table.hasFault_accepted.mpr hfault)

end Reconcile

/-- **When reconciliation fails in generation.** Let the declared tables have different names.
Reading a catalog never fails. Generation fails if and only if there is no cyclic dependency and
some declared table that does not exist, other than a full text table of SQLite, has no columns or a
column without a definition. The error then names such a fault, so neither an index of a new table
nor anything of an existing table is ever the cause. Whenever there is a plan, it has statements. -/
theorem reconcile_generate_iff {s : DeclaredSchema} {defaultSchema : String} {tables : List Table}
    {got : Catalog} (hgot : got = Catalog.ofTables defaultSchema tables)
    (hnames : ((s.resolved defaultSchema).map Table.qualifiedName).Nodup) (detectDrift : Bool) :
    (∀ e, reconcile got.view s detectDrift ≠ .error (.read e)) ∧
    ((∃ e, reconcile got.view s detectDrift = .error (.generate e)) ↔
      (∀ members, reconcile got.view s detectDrift ≠ .error (.cyclicDependency members)) ∧
      ∃ t ∈ got.absent (s.resolved defaultSchema), ¬ t.IsFullTextIn s.dialect ∧
        (t.columns = [] ∨
          ∃ c ∈ t.columns, (s.dialect.columnDefinition t.qualifiedName c).isOk = false)) ∧
    (∀ e, reconcile got.view s detectDrift = .error (.generate e) →
      ∃ t ∈ got.absent (s.resolved defaultSchema), t.HasFault s.dialect e) ∧
    ∀ p, reconcile got.view s detectDrift = .ok p → (p.statements s.dialect).isOk = true := by
  have hschema : got.defaultSchema = defaultSchema := by
    rw [hgot, Catalog.defaultSchema_ofTables]
  have hread : ∀ t ∈ s.resolved got.defaultSchema, got.IsReadable t.qualifiedName := by
    rw [hgot]
    exact fun t _ => Catalog.isSome_table?_ofTables
  subst hschema
  refine ⟨reconcile_ne_read hread, ⟨?_, ?_⟩, fun e => exists_hasFault_of_generate hnames hread,
    fun p => isOk_statements_of_reconcile⟩
  · rintro ⟨e, h⟩
    have hcyclic (members) :
        reconcile got.view s detectDrift ≠ .error (.cyclicDependency members) := by
      intro hcyclic
      rw [h] at hcyclic
      cases hcyclic
    obtain ⟨t, ht, hfull, hcause⟩ := exists_hasFault_of_generate hnames hread h
    refine ⟨hcyclic, t, ht, hfull, hcause.imp And.left ?_⟩
    rintro ⟨c, hc, he⟩
    exact ⟨c, hc, by rw [he]; rfl⟩
  · rintro ⟨hcyclic, t, ht, hfull, hcause⟩
    have hfault : ∃ e, t.HasFault s.dialect e := by
      rcases hcause with hempty | ⟨c, hc, hdefinition⟩
      · exact ⟨_, hfull, Or.inl ⟨hempty, rfl⟩⟩
      · obtain ⟨e, he⟩ := Except.isOk_eq_false_iff.mp hdefinition
        exact ⟨e, hfull, Or.inr ⟨c, hc, he⟩⟩
    obtain ⟨e, hfault⟩ := hfault
    cases h : reconcile got.view s detectDrift with
    | ok p => exact absurd hfault (not_hasFault_of_reconcile_eq_ok hnames h ht)
    | error error =>
      cases error with
      | cyclicDependency members => exact absurd h (hcyclic members)
      | read cause => exact absurd h (reconcile_ne_read hread cause)
      | generate cause => exact ⟨cause, rfl⟩

/-- Postgres has no serial type for the actors' text. Films, which exist, lack a column of the same
kind, which is left out with a warning. -/
theorem reconcile_generate_iff_serialText :
    let serial : Column := { name := "code", columnType := "TEXT", autoincrement := .serial }
    let film : Table := { name := "film", columns := [{ name := "film_id", columnType := "INT" }] }
    let actor : Table := { name := "actor", columns := [serial] }
    let s : DeclaredSchema := {
      dialect := .postgres
      tables := [{ film with columns := film.columns ++ [serial] }, actor] }
    let got := Catalog.ofTables "public" [film]
    ∃ e, reconcile got.view s true = .error (.generate e) ∧
      (actor.resolve "public").HasFault .postgres e := by
  intro serial film actor s got
  have hgot : got = Catalog.ofTables "public" [film] := rfl
  obtain ⟨-, hgenerate, hfault, -⟩ := reconcile_generate_iff (s := s) hgot (by decide) true
  have horder : TableOrder.order (newTables s got) false = .ok ([actor.resolve "public"], []) := by
    decide +kernel
  have hcyclic : ∀ members, reconcile got.view s true ≠ .error (.cyclicDependency members) := by
    intro members h
    rw [reconcile_eq_cyclicDependency_iff (fun t _ => Catalog.isSome_table?_ofTables)] at h
    rw [show s.dialect.allowsForwardReferences = false from rfl, horder] at h
    cases h
  obtain ⟨e, h⟩ := hgenerate.mpr ⟨hcyclic, actor.resolve "public", by decide, by decide,
    Or.inr ⟨serial, by decide, by decide⟩⟩
  obtain ⟨t, ht, htfault⟩ := hfault e h
  have habsent : got.absent (s.resolved "public") = [actor.resolve "public"] := by decide
  rw [habsent, List.mem_singleton] at ht
  exact ⟨e, h, ht ▸ htfault⟩

end AdditiveSchema
