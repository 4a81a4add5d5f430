import AdditiveSchema.Proofs.NewTables

/-!
# Columns that new tables reference

A plan creates all of its tables before it adds a column to an existing one. Where a new table has a
foreign key to such a column from the start, the key leads to a column that is not there yet. A key
to a column of another new table is in time, because the other table is created first; that fails
only where two columns of the new table have one name, since a key is deferred by the name of its
column, and is taken from the first column of that name.

## Main definitions

* `Catalog.HasColumnAfter` : a column is there once some actions are carried out.

## Main results

* `reconcile_referencedColumn_iff` : when a column that a new table references is there in time.
-/

namespace AdditiveSchema

open Reconcile

/-- The action creates the column, alone or with its table. -/
def Action.Provides (table : QualifiedName) (column : String) : Action → Prop
  | .createTable u => u.qualifiedName = table ∧ column ∈ u.columns.map (·.name)
  | .createColumn t c => t = table ∧ c.name = column
  | _ => False

/-- The table of that name has the column from the start, or one of the actions creates it. -/
def Catalog.HasColumnAfter (c : Catalog) (actions : List Action) (table : QualifiedName)
    (column : String) : Prop :=
  (∃ g, c.table? table = some g ∧ column ∈ g.columns.map (·.name)) ∨
    ∃ a ∈ actions, a.Provides table column

/-! ### Which action creates a table -/

/-- The names of the tables that the actions create. -/
def Action.createdNames (actions : List Action) : List QualifiedName :=
  (actions.filterMap Action.created?).map Table.qualifiedName

theorem Action.mem_createdNames_append {pre post : List Action} {name : QualifiedName} :
    name ∈ createdNames (pre ++ post) ↔ name ∈ createdNames pre ∨ name ∈ createdNames post := by
  rw [createdNames, List.filterMap_append, List.map_append, List.mem_append]
  rfl

theorem Action.any_creates_iff {actions : List Action} {name : QualifiedName} :
    actions.any (Action.creates name) = true ↔ name ∈ createdNames actions := by
  rw [createdNames, List.any_eq_true, List.mem_map]
  constructor
  · rintro ⟨a, ha, hname⟩
    cases a with
    | createTable u => exact ⟨u, List.mem_filterMap.mpr ⟨_, ha, rfl⟩, eq_of_beq hname⟩
    | createColumn | createConstraint | createIndex | addForeignKey => cases hname
  · rintro ⟨u, hu, rfl⟩
    obtain ⟨a, ha, hcreated⟩ := List.mem_filterMap.mp hu
    cases a with
    | createTable =>
      cases hcreated
      exact ⟨_, ha, beq_self_eq_true _⟩
    | createColumn | createConstraint | createIndex | addForeignKey => cases hcreated

namespace Reconcile

variable {s : DeclaredSchema} {c : Catalog} {detectDrift : Bool} {p : Plan} {t u : Table}

/-- A plan creates the declared tables that are lacking. -/
theorem mem_createdNames_iff (h : reconcile c.view s detectDrift = .ok p)
    (ht : t ∈ s.resolved c.defaultSchema) :
    t.qualifiedName ∈ Action.createdNames p.actions ↔ c.table? t.qualifiedName = none := by
  have hmem : t.qualifiedName ∈ Action.createdNames p.actions ↔ _ :=
    (createsFirst_of_reconcile h).mem_iff t.qualifiedName
  rw [hmem, List.mem_map]
  constructor
  · rintro ⟨t', ht', hname⟩
    rw [← hname]
    simpa using (List.mem_filter.mp ht').2
  · intro hnone
    exact ⟨t, List.mem_filter.mpr ⟨ht, by rw [hnone]; rfl⟩, rfl⟩

/-- No name is created twice. -/
theorem notMem_createdNames_of_mem (h : reconcile c.view s detectDrift = .ok p)
    {pre post : List Action} (hactions : p.actions = pre ++ post) {name : QualifiedName}
    (hpre : name ∈ Action.createdNames pre) : name ∉ Action.createdNames post := by
  have hnodup : (Action.createdNames p.actions).Nodup := (createsFirst_of_reconcile h).nodup
  rw [hactions, Action.createdNames, List.filterMap_append, List.map_append,
    List.nodup_append] at hnodup
  intro hpost
  exact hnodup.2.2 _ hpre _ hpost rfl

/-- A table is created with all of its declared columns. -/
theorem map_name_columns_of_createTable_mem
    (hnames : ((s.resolved c.defaultSchema).map Table.qualifiedName).Nodup)
    (h : reconcile c.view s detectDrift = .ok p) (ht : t ∈ s.resolved c.defaultSchema)
    (hu : .createTable u ∈ p.actions) (hname : u.qualifiedName = t.qualifiedName) :
    u.columns.map (·.name) = t.columns.map (·.name) := by
  obtain ⟨t', hfind, hreduct⟩ := (createsFirst_of_reconcile h).first u (Plan.mem_created.mpr hu)
  have hname' := List.find?_some hfind
  obtain rfl := List.inj_on_of_nodup_map hnames
    (List.mem_of_mem_filter (List.mem_of_find?_eq_some hfind)) ht ((eq_of_beq hname').trans hname)
  exact hreduct.map_name_columns

/-- While a plan still creates tables, what it provides of a declared table is the table itself. -/
theorem exists_provides_iff
    (hnames : ((s.resolved c.defaultSchema).map Table.qualifiedName).Nodup)
    (h : reconcile c.view s detectDrift = .ok p) (ht : t ∈ s.resolved c.defaultSchema)
    {column : String} (hcolumn : column ∈ t.columns.map (·.name)) {pre post : List Action}
    (hactions : p.actions = pre ++ .createTable u :: post) :
    (∃ a ∈ pre ++ [.createTable u], a.Provides t.qualifiedName column) ↔
      t.qualifiedName ∈ Action.createdNames (pre ++ [.createTable u]) := by
  rw [← Action.any_creates_iff, List.any_eq_true]
  refine exists_congr fun a => and_congr_right fun ha => ?_
  have hmem : a ∈ p.actions := by
    rw [hactions, List.append_cons]
    exact List.mem_append_left post ha
  obtain ⟨w, rfl⟩ : ∃ w, a = .createTable w := by
    obtain ⟨-, created, deferred, -, -, rfl⟩ := reconcile_eq_ok_iff.mp h
    obtain ⟨before, -, -, rfl⟩ := exists_created_of_actions hactions
    rcases List.mem_append.mp ha with ha | ha
    · obtain ⟨w, -, rfl⟩ := List.mem_map.mp ha
      exact ⟨w, rfl⟩
    · exact ⟨u, List.mem_singleton.mp ha⟩
  constructor
  · rintro ⟨hname, -⟩
    exact beq_iff_eq.mpr hname
  · intro hcreates
    have hname := eq_of_beq hcreates
    exact ⟨hname, map_name_columns_of_createTable_mem hnames h ht hmem hname ▸ hcolumn⟩

/-- Once a new table is created, a declared column is there unless an existing table lacks it or its
table is created later. -/
theorem hasColumnAfter_createTable_iff
    (hnames : ((s.resolved c.defaultSchema).map Table.qualifiedName).Nodup)
    (h : reconcile c.view s detectDrift = .ok p) (ht : t ∈ s.resolved c.defaultSchema)
    {column : String} (hcolumn : column ∈ t.columns.map (·.name)) {pre post : List Action}
    (hactions : p.actions = pre ++ .createTable u :: post) :
    c.HasColumnAfter (pre ++ [.createTable u]) t.qualifiedName column ↔
      ¬ ((∃ g, c.table? t.qualifiedName = some g ∧ g.LacksColumn column) ∨
        post.any (Action.creates t.qualifiedName) = true) := by
  have hsplit : p.actions = pre ++ [.createTable u] ++ post := by
    rw [hactions, ← List.append_cons]
  -- the table is created before the cut, after it, or not at all, and then it is in the catalog
  have hcreated := mem_createdNames_iff h ht
  rw [hsplit, Action.mem_createdNames_append] at hcreated
  rw [Catalog.HasColumnAfter, exists_provides_iff hnames h ht hcolumn hactions,
    Action.any_creates_iff]
  cases hg : c.table? t.qualifiedName with
  | some g =>
    rw [hg, iff_false_right (Option.some_ne_none g), not_or] at hcreated
    simp [hcreated.1, hcreated.2, Table.LacksColumn]
  | none =>
    have honce : t.qualifiedName ∈ Action.createdNames (pre ++ [.createTable u]) →
        t.qualifiedName ∉ Action.createdNames post := notMem_createdNames_of_mem h hsplit
    simp only [reduceCtorEq, false_and, exists_false, false_or]
    exact ⟨honce, fun hpost => (hcreated.mpr hg).resolve_right hpost⟩

/-- A new table is created before a table that it references from the start only if two of its
columns have one name. -/
theorem not_nodup_columns_of_creates (hdialect : s.dialect ≠ .sqlite)
    (hnames : ((s.resolved c.defaultSchema).map Table.qualifiedName).Nodup)
    (h : reconcile c.view s detectDrift = .ok p) {pre post : List Action}
    (hactions : p.actions = pre ++ .createTable u :: post) {col : Column} (hcol : col ∈ u.columns)
    {fk : ForeignKey} (hfk : col.references = some fk)
    (hpost : post.any (Action.creates fk.table) = true) :
    ¬ (u.columns.map (·.name)).Nodup := by
  intro hnodup
  rw [Action.any_creates_iff] at hpost
  have hsplit : p.actions = pre ++ [.createTable u] ++ post := by
    rw [hactions, ← List.append_cons]
  have hpre : fk.table ∉ Action.createdNames (pre ++ [.createTable u]) :=
    fun hpre => notMem_createdNames_of_mem h hsplit hpre hpost
  rw [Action.mem_createdNames_append, not_or] at hpre
  have hsome : p.actions.any (Action.creates fk.table) = true := by
    rw [hsplit, Action.any_creates_iff, Action.mem_createdNames_append]
    exact Or.inr hpost
  obtain ⟨-, created, deferred, horder, -, rfl⟩ := reconcile_eq_ok_iff.mp h
  have hforward : s.dialect.allowsForwardReferences = false := by
    simpa [Dialect.allowsForwardReferences] using hdialect
  rw [hforward] at horder
  rcases leadsBack_of_nodup_columns hnames horder hactions hnodup hcol hfk with
    hself | hbefore | hnever
  · exact hpre.2 (hself ▸ List.mem_cons_self)
  · exact hpre.1 (Action.any_creates_iff.mp hbefore)
  · exact Bool.noConfusion (hnever.symm.trans hsome)

end Reconcile

/-- **When a column that a new table references is there in time.** Let the dialect be one that
checks foreign keys when a table is created, and let a new table have a foreign key to a declared
column from the start. Once the table is created, the column is there if and only if it is neither
lacking in an existing table nor part of a table that is created later. The latter means that two
columns of the new table have one name. -/
theorem reconcile_referencedColumn_iff {s : DeclaredSchema} (hdialect : s.dialect ≠ .sqlite)
    {got : Catalog} (hnames : ((s.resolved got.defaultSchema).map Table.qualifiedName).Nodup)
    {detectDrift : Bool} {p : Plan} (h : reconcile got.view s detectDrift = .ok p)
    {pre post : List Action} {u : Table} (hactions : p.actions = pre ++ .createTable u :: post)
    {col : Column} (hcol : col ∈ u.columns) {fk : ForeignKey} (hfk : col.references = some fk)
    {t : Table} (ht : t ∈ s.resolved got.defaultSchema) (htarget : t.qualifiedName = fk.table)
    (hcolumn : fk.column ∈ t.columns.map (·.name)) :
    (got.HasColumnAfter (pre ++ [.createTable u]) fk.table fk.column ↔
      ¬ ((∃ g, got.table? fk.table = some g ∧ g.LacksColumn fk.column) ∨
        post.any (Action.creates fk.table) = true)) ∧
      (post.any (Action.creates fk.table) = true → ¬ (u.columns.map (·.name)).Nodup) := by
  constructor
  · rw [← htarget]
    exact hasColumnAfter_createTable_iff hnames h ht hcolumn hactions
  · exact not_nodup_columns_of_creates hdialect hnames h hactions hcol hfk

/-- Films have a slug, and reviews are about the film with a slug. -/
def reviewDefinitions : List TableDef := [
  { name := "film"
    columns := [
      { field := "film_id", kind := .number, directive := "primarykey" },
      { field := "slug", kind := .string, directive := "unique" }] },
  { name := "review"
    columns := [
      { field := "review_id", kind := .number, directive := "primarykey" },
      { field := "film_slug", kind := .string, directive := "references=film.slug" }] }]

/-- The slug of a film. -/
def filmSlug : Column where
  name := "slug"
  columnType := "TEXT"
  kind := some .string
  unique := true

/-- What these definitions declare. -/
def filmsAndReviews : DeclaredSchema where
  dialect := .postgres
  tables := [
    { name := "film"
      columns := [
        { name := "film_id", columnType := "INT", kind := some .number, notNull := true,
          primaryKey := true },
        filmSlug] },
    { name := "review"
      columns := [
        { name := "review_id", columnType := "INT", kind := some .number, notNull := true,
          primaryKey := true },
        { name := "film_slug", columnType := "TEXT", kind := some .string,
          references := some { table := { name := "film" }, column := "slug" } }] }]

/-- If both tables are new, films are created first, and with them the slug. -/
theorem reconcile_referencedColumn_iff_review :
    let got := Catalog.ofTables "public" []
    DeclaredSchema.build .postgres .warn reviewDefinitions = .ok filmsAndReviews ∧
      ∃ p pre u, reconcile got.view filmsAndReviews false = .ok p ∧
        p.actions = pre ++ [.createTable u] ∧ u.name = "review" ∧
        got.HasColumnAfter (pre ++ [.createTable u]) ⟨"public", "film"⟩ "slug" := by
  intro got
  have hbuild : DeclaredSchema.build .postgres .warn reviewDefinitions = .ok filmsAndReviews := by
    decide +kernel
  let film : Table := (filmsAndReviews.resolved "public")[0]
  let review : Table := (filmsAndReviews.resolved "public")[1]
  have h : reconcile got.view filmsAndReviews false = .ok
      { actions := [.createTable film] ++ [.createTable review], warnings := [] } := by
    decide +kernel
  refine ⟨hbuild, _, _, review, h, rfl, rfl, ?_⟩
  have hcol : review.columns[1] ∈ review.columns := by decide
  refine (reconcile_referencedColumn_iff (by decide) (by decide) h rfl hcol rfl (t := film)
    (by decide) rfl (by decide)).1.mpr ?_
  rintro (⟨g, hg, -⟩ | hlater)
  · cases hg
  · cases hlater

/-- If films exist without slugs, reviews are created before the slug that they reference. -/
theorem reconcile_referencesMissingSlug :
    let got := Catalog.ofTables "public" [
      { name := "film"
        columns := [
          { name := "film_id", columnType := "INT", notNull := true, primaryKey := true }] }]
    DeclaredSchema.build .postgres .warn reviewDefinitions = .ok filmsAndReviews ∧
      ∃ p u, reconcile got.view filmsAndReviews false = .ok p ∧
        p.actions = [.createTable u, .createColumn ⟨"public", "film"⟩ filmSlug] ∧
        (∃ col ∈ u.columns, ∃ fk, col.references = some fk ∧ fk.table = ⟨"public", "film"⟩ ∧
          fk.column = "slug") ∧
        ¬ got.HasColumnAfter [.createTable u] ⟨"public", "film"⟩ "slug" := by
  intro got
  have hbuild : DeclaredSchema.build .postgres .warn reviewDefinitions = .ok filmsAndReviews := by
    decide +kernel
  let review : Table := (filmsAndReviews.resolved "public")[1]
  have h : reconcile got.view filmsAndReviews false = .ok
      { actions := [.createTable review, .createColumn ⟨"public", "film"⟩ filmSlug]
        warnings := [] } := by
    decide +kernel
  refine ⟨hbuild, _, review, h, rfl, ⟨review.columns[1], by decide, _, rfl, rfl, rfl⟩, ?_⟩
  rintro (⟨g, hg, hslug⟩ | ⟨a, ha, hprovides⟩)
  · cases hg
    exact absurd hslug (by decide)
  · obtain rfl := List.mem_singleton.mp ha
    exact absurd hprovides.1 (by decide)

end AdditiveSchema
