import AdditiveSchema.Proofs.DeclaredItems
import AdditiveSchema.Proofs.ForeignKeys

/-!
# Columns that constraints and indices are made over

A plan adds columns before the constraints and indices that are made over them. But each change is
looked at alone: a column that the dialect cannot add is left out with a warning, while a constraint
or an index over it stays. So a column that a change is made over is there in time, unless all
declared columns of its name were skipped.

## Main definitions

* `Action.usedColumns` : the columns that a constraint or an index is made over.
* `Plan.SkipsColumns` : all declared columns of a name were skipped with a warning.

## Main results

* `Table.UsesOwnColumns.of_mem_usedColumns` : declared changes are made over declared columns.
* `reconcile_usedColumns_iff` : when a column that a change is made over is there in time.
-/

namespace AdditiveSchema

open Reconcile

/-! ### The columns of a change -/

/-- The column that the key is, if it is no expression. -/
def IndexKey.column? : IndexKey → Option String
  | .column name => some name
  | .expr _ => none

namespace Action

/-- The columns that the constraint or the index is made over. -/
def usedColumns : Action → List String
  | .createConstraint _ k => k.columns
  | .createIndex _ i => i.keys.filterMap IndexKey.column?
  | _ => []

variable {a : Action} {n : String}

/-- Only constraints and indices are made over columns. -/
theorem one_lt_rank_of_mem_usedColumns (h : n ∈ a.usedColumns) :
    a.isChange = true ∧ 1 < a.rank := by
  cases a with
  | createConstraint | createIndex => exact ⟨rfl, by simp [rank]⟩
  | createTable | createColumn | addForeignKey => cases h

theorem isAccepted_createColumn {d : Dialect} {table : QualifiedName} {col : Column} :
    (createColumn table col).isAccepted d = (d.createColumn table col).isOk :=
  Except.isOk_map _ _

theorem isAccepted_createConstraint {d : Dialect} {table : QualifiedName} {k : TableConstraint} :
    (createConstraint table k).isAccepted d = (d.createConstraint table k).isOk :=
  Except.isOk_map _ _

theorem isAccepted_createIndex {d : Dialect} {table : QualifiedName} {i : Index} :
    (createIndex table i).isAccepted d = (d.createIndex table i).isOk :=
  Except.isOk_map _ _

end Action

/-- **Declared changes are made over declared columns,** where the empty name stands for an
expression. -/
theorem Table.UsesOwnColumns.of_mem_usedColumns {t : Table} (h : t.UsesOwnColumns) {a : Action}
    (ha : a ∈ t.items) {n : String} (hn : n ∈ a.usedColumns) :
    n = "" ∨ n ∈ t.columns.map (·.name) := by
  simp only [Table.items, List.mem_append, List.mem_map] at ha
  rcases ha with (⟨col, -, rfl⟩ | ⟨k, hk, rfl⟩) | ⟨i, hi, rfl⟩
  · cases hn
  · exact Or.inr (h.constraints k hk n hn)
  · obtain ⟨key, hkey, hcolumn⟩ := List.mem_filterMap.mp hn
    cases key with
    | column name =>
      cases hcolumn
      exact h.indices i hi _ (Index.mem_columns_of_mem_keys hkey)
    | expr text => cases hcolumn

/-- All columns of that name that are declared on the table were skipped with a warning, because
the dialect cannot add them. -/
def Plan.SkipsColumns (p : Plan) (s : DeclaredSchema) (defaultSchema : String)
    (table : QualifiedName) (n : String) : Prop :=
  ∀ t ∈ s.resolved defaultSchema, t.qualifiedName = table → ∀ col ∈ t.columns, col.name = n →
    ∃ e, s.dialect.createColumn table col = .error e ∧
      .unsupported table e.message ∈ p.warnings

namespace Reconcile

variable {s : DeclaredSchema} {c : Catalog} {detectDrift : Bool} {created : List Table}
  {deferred : List Deferral} {a : Action}

/-! ### Changes of a plan -/

/-- The changes are those actions of a plan that add to an existing table. -/
theorem mem_changes_of_mem_actions (ha : a.isChange = true)
    (h : a ∈ (planOf s c detectDrift created deferred).actions) : a ∈ changes s c := by
  rw [planOf, List.mem_append, List.mem_append] at h
  rcases h with (h | h) | h
  · obtain ⟨_, -, rfl⟩ := List.mem_map.mp h
    cases ha
  · exact h
  · obtain ⟨_, -, rfl⟩ := List.mem_map.mp h
    cases ha

/-- A change that is owed but refused is warned about. -/
theorem unsupported_mem_warnings (ha : a ∈ c.owed (s.resolved c.defaultSchema))
    {e : GenerateError} (he : a.statements s.dialect = .error e) :
    .unsupported a.table e.message ∈ (planOf s c detectDrift created deferred).warnings := by
  have hrefused : .unsupported a.table e.message ∈
      refusedChanges s.dialect (ChangeOrder.order (c.owed (s.resolved c.defaultSchema))) :=
    List.mem_filterMap.mpr
      ⟨a, (ChangeOrder.perm_order _).mem_iff.mpr ha, by rw [refusal?, he]⟩
  exact List.mem_append_left _ (List.mem_append_right _ hrefused)

/-- **A change that is owed** is part of the plan, or it is refused with a warning. -/
theorem mem_actions_or_refused (ha : a ∈ c.owed (s.resolved c.defaultSchema)) :
    a ∈ (planOf s c detectDrift created deferred).actions ∨
      ∃ e, a.statements s.dialect = .error e ∧
        .unsupported a.table e.message ∈ (planOf s c detectDrift created deferred).warnings := by
  cases hstatements : a.statements s.dialect with
  | ok statements =>
    have haccepted : a.isAccepted s.dialect = true := by
      rw [Action.isAccepted, hstatements]
      rfl
    have hmem := mem_changes_iff.mpr ⟨ha, haccepted⟩
    exact Or.inl (List.mem_append_left _ (List.mem_append_right _ hmem))
  | error e => exact Or.inr ⟨e, rfl, unsupported_mem_warnings ha hstatements⟩

/-- What comes earlier in the order of kinds comes before. -/
theorem mem_pre_of_rank_lt {pre post : List Action} {b : Action}
    (hactions : (planOf s c detectDrift created deferred).actions = pre ++ a :: post)
    (hb : b ∈ (planOf s c detectDrift created deferred).actions) (hrank : b.rank < a.rank) :
    b ∈ pre := by
  have hsorted : (pre ++ a :: post).Pairwise fun a b => a.rank ≤ b.rank :=
    hactions ▸ pairwise_rank_planOf
  rw [hactions] at hb
  rcases List.mem_append.mp hb with hb | hb
  · exact hb
  rcases List.mem_cons.mp hb with rfl | hb
  · exact absurd hrank (Nat.lt_irrefl _)
  · have hle := (List.pairwise_cons.mp (List.pairwise_append.mp hsorted).2.1).1 b hb
    omega

/-- **A column that is declared** on an existing table which lacks it is added before the
constraints and indices, or it is skipped with a warning. -/
theorem createColumn_mem_or_skipped {pre post : List Action} (hrank : 1 < a.rank)
    (hactions : (planOf s c detectDrift created deferred).actions = pre ++ a :: post)
    {t g : Table} (ht : t ∈ s.resolved c.defaultSchema) (hg : c.table? t.qualifiedName = some g)
    {col : Column} (hcol : col ∈ t.columns) (hlacks : g.LacksColumn col.name) :
    .createColumn t.qualifiedName col ∈ pre ∨
      ∃ e, s.dialect.createColumn t.qualifiedName col = .error e ∧
        .unsupported t.qualifiedName e.message ∈
          (planOf s c detectDrift created deferred).warnings := by
  have hitem : .createColumn t.qualifiedName col ∈ t.items :=
    List.mem_append_left _ (List.mem_append_left _ (List.mem_map_of_mem hcol))
  have howed : .createColumn t.qualifiedName col ∈ c.owed (s.resolved c.defaultSchema) :=
    Catalog.mem_owed_iff.mpr ⟨⟨t, ht, hitem⟩, (Catalog.lacks_iff_of_table? hg).mpr hlacks⟩
  rcases mem_actions_or_refused howed with hmem | ⟨e, he, hwarning⟩
  · exact Or.inl (mem_pre_of_rank_lt hactions hmem hrank)
  · exact Or.inr ⟨e, Except.map_eq_error_iff.mp he, hwarning⟩

/-- A column that was added is declared on a table of that name, which lacked it, and the dialect
can add it. -/
theorem exists_of_createColumn_mem {table : QualifiedName} {col : Column}
    (h : .createColumn table col ∈ (planOf s c detectDrift created deferred).actions) :
    (∃ t ∈ s.resolved c.defaultSchema, t.qualifiedName = table ∧ col ∈ t.columns) ∧
      (s.dialect.createColumn table col).isOk = true := by
  obtain ⟨howed, haccepted⟩ := mem_changes_iff.mp (mem_changes_of_mem_actions rfl h)
  obtain ⟨⟨t, ht, hitem⟩, -⟩ := Catalog.mem_owed_iff.mp howed
  rw [Action.isAccepted_createColumn] at haccepted
  exact ⟨⟨t, ht, Table.createColumn_mem_items.mp hitem⟩, haccepted⟩

end Reconcile

/-- **When a column that a change is made over is there in time.** If a plan adds a constraint or an
index over a column to an existing table, the table has the column or an earlier action adds it, if
and only if the table does not lack the column or not all declared columns of its name were skipped
with a warning. Some column of that name is declared on the table, unless the name is empty. -/
theorem reconcile_usedColumns_iff {d : Dialect} {policy : ModifierPolicy}
    {definitions : List TableDef} {s : DeclaredSchema}
    (hbuild : DeclaredSchema.build d policy definitions = .ok s) {got : Catalog}
    {detectDrift : Bool} {p : Plan} (h : reconcile got.view s detectDrift = .ok p)
    {pre post : List Action} {a : Action} (hactions : p.actions = pre ++ a :: post) {n : String}
    (hn : n ∈ a.usedColumns) :
    ∃ g, got.table? a.table = some g ∧
      ((n ∈ g.columns.map (·.name) ∨ ∃ col, .createColumn a.table col ∈ pre ∧ col.name = n) ↔
        ¬ (g.LacksColumn n ∧ p.SkipsColumns s got.defaultSchema a.table n)) ∧
      (n = "" ∨ ∃ t ∈ s.resolved got.defaultSchema, t.qualifiedName = a.table ∧
        n ∈ t.columns.map (·.name)) := by
  obtain ⟨-, created, deferred, -, -, rfl⟩ := reconcile_eq_ok_iff.mp h
  obtain ⟨hchange, hrank⟩ := Action.one_lt_rank_of_mem_usedColumns hn
  have ha : a ∈ changes s got :=
    mem_changes_of_mem_actions hchange (hactions ▸ List.mem_append_right _ List.mem_cons_self)
  obtain ⟨⟨t, ht, hitem⟩, hlacks⟩ := Catalog.mem_owed_iff.mp (mem_changes_iff.mp ha).1
  obtain ⟨g, hg⟩ := Catalog.exists_table?_of_lacks hchange hlacks
  refine ⟨g, hg, ⟨?_, fun hnot => ?_⟩, ?_⟩
  · rintro (hcolumn | ⟨col, hcol, rfl⟩) ⟨hlacking, hskips⟩
    · exact hlacking hcolumn
    · obtain ⟨⟨u, hu, hname, hmem⟩, hok⟩ :=
        exists_of_createColumn_mem (hactions ▸ List.mem_append_left _ hcol)
      obtain ⟨e, he, -⟩ := hskips u hu hname col hmem rfl
      rw [he] at hok
      cases hok
  · by_contra hdangles
    obtain ⟨hlacking, hadded⟩ := not_or.mp hdangles
    refine hnot ⟨hlacking, fun u hu hname col hcol hcolumn => ?_⟩
    rw [← hname] at hg hadded ⊢
    exact (createColumn_mem_or_skipped hrank hactions hu hg hcol (hcolumn ▸ hlacking)).resolve_left
      fun hmem => hadded ⟨col, hmem, hcolumn⟩
  · obtain ⟨u, hu, rfl⟩ := List.mem_map.mp ht
    have hown := (DeclaredSchema.usesOwnColumns_of_build hbuild u hu).resolve got.defaultSchema
    exact (hown.of_mem_usedColumns hitem hn).imp_right fun hcolumn =>
      ⟨_, ht, (Table.table_of_mem_items hitem).symm, hcolumn⟩

/-- Films have a number and a slug, which is declared by the directive. -/
def slugDefinitions (directive : String) : List TableDef := [
  { name := "film"
    columns := [
      { field := "film_id", kind := .number, directive := "primarykey" },
      { field := "slug", kind := .string, directive := directive }] }]

/-- Films with an index over their slugs, which may be unique. -/
def filmsWithSlug (unique : Bool) : DeclaredSchema where
  dialect := .sqlite
  tables := [
    { name := "film"
      columns := [
        { name := "film_id", columnType := "INT", kind := some .number, notNull := true,
          primaryKey := true },
        { name := "slug", columnType := "TEXT", kind := some .string, unique := unique }]
      indices := [{ name := "film_slug_idx", columns := ["slug"], exprs := [""] }] }]

/-- Films without slugs. -/
def filmsWithoutSlug : Catalog :=
  Catalog.ofTables "main" [
    { name := "film"
      columns := [
        { name := "film_id", columnType := "INT", notNull := true, primaryKey := true }] }]

/-- The index over the slugs of films. -/
def createSlugIndex : Action :=
  .createIndex ⟨"main", "film"⟩
    { schema := "main", name := "film_slug_idx", columns := ["slug"], exprs := [""] }

/-- A slug that need not be unique is there before the index over it. -/
theorem reconcile_usedColumns_iff_slug :
    DeclaredSchema.build .sqlite .warn (slugDefinitions "index") = .ok (filmsWithSlug false) ∧
      ∃ p pre, reconcile filmsWithoutSlug.view (filmsWithSlug false) false = .ok p ∧
        p.actions = pre ++ [createSlugIndex] ∧
        ∃ g, filmsWithoutSlug.table? ⟨"main", "film"⟩ = some g ∧
          ("slug" ∈ g.columns.map (·.name) ∨
            ∃ col, .createColumn ⟨"main", "film"⟩ col ∈ pre ∧ col.name = "slug") := by
  have hbuild : DeclaredSchema.build .sqlite .warn (slugDefinitions "index") =
      .ok (filmsWithSlug false) := by
    decide +kernel
  let slug : Column := { name := "slug", columnType := "TEXT", kind := some .string }
  have h : reconcile filmsWithoutSlug.view (filmsWithSlug false) false = .ok
      { actions := [.createColumn ⟨"main", "film"⟩ slug] ++ [createSlugIndex]
        warnings := [] } := by
    decide +kernel
  obtain ⟨g, hg, hiff, -⟩ := reconcile_usedColumns_iff hbuild h rfl (n := "slug") (by decide)
  refine ⟨hbuild, _, _, h, rfl, g, hg, hiff.mpr fun hskipped => ?_⟩
  obtain ⟨-, hskips⟩ := hskipped
  obtain ⟨e, he, -⟩ := hskips _ List.mem_cons_self rfl slug (by decide) rfl
  cases he

/-- A slug that must be unique is left out, since SQLite cannot add such a column, but the index
over it is not. -/
theorem reconcile_createsIndexOfSkippedSlug :
    DeclaredSchema.build .sqlite .warn (slugDefinitions "unique index") =
        .ok (filmsWithSlug true) ∧
      ∃ p, reconcile filmsWithoutSlug.view (filmsWithSlug true) false = .ok p ∧
        p.actions = [createSlugIndex] ∧ "slug" ∈ createSlugIndex.usedColumns ∧
        ∃ g, filmsWithoutSlug.table? createSlugIndex.table = some g ∧
          "slug" ∉ g.columns.map (·.name) := by
  have hbuild : DeclaredSchema.build .sqlite .warn (slugDefinitions "unique index") =
      .ok (filmsWithSlug true) := by
    decide +kernel
  have h : reconcile filmsWithoutSlug.view (filmsWithSlug true) false = .ok
      { actions := [createSlugIndex]
        warnings := [.unsupported ⟨"main", "film"⟩
          "sqlite3 does not support adding a UNIQUE column (main.film.slug)"] } := by
    decide +kernel
  exact ⟨hbuild, _, h, rfl, by decide, _, rfl, by decide⟩

end AdditiveSchema
