import AdditiveSchema.Proofs.DeclaredKeys
import AdditiveSchema.Proofs.UsedColumns

/-!
# Names that a database reports

An item that a database reports under a name is not created again under this name, whether the
database calls it a constraint or an index. For this the catalog has to know the name. It does,
except for keys over a single column that become flags of their columns: these are found again by
their columns, and an index or a constraint of the name of such a key is created once more.

## Main definitions

* `Table.Flags` : a flag of a column of the table stands for the constraint.
* `Table.ForgetsConstraints` : no constraint of that name outlives the folding of keys.

## Main results

* `Catalog.mem_names_constraints_normalize` : the names of constraints that a catalog knows.
* `reconcile_recreates_iff` : which items of an existing table are created again.
-/

namespace AdditiveSchema

open Reconcile

/-! ### What a catalog knows of a table -/

namespace Table

/-- A flag of a column of the table stands for the constraint. -/
def Flags (t : Table) (k : TableConstraint) : Prop :=
  k.IsFlag t.name ∧ ∀ column ∈ k.columns, column ∈ t.columns.map (·.name)

/-- Flags stand for all constraints of that name, so nothing is left that bears it. -/
def ForgetsConstraints (t : Table) (n : String) : Prop :=
  ∀ k ∈ t.constraints, k.name = n → t.Flags k

theorem flags_iff {t : Table} {k : TableConstraint} :
    t.Flags k ↔ (foldsInto? t.name t.columns k).isSome = true := by
  rw [Option.isSome_iff_ne_none]
  constructor
  · rintro ⟨hflag, hcolumns⟩ hnone
    exact neverFolds_iff.mp (neverFolds_of_own hnone hcolumns) hflag
  · intro hsome
    refine ⟨?_, ?_⟩
    · by_contra hflag
      exact hsome (neverFolds_iff.mpr hflag t.columns)
    · unfold foldsInto? at hsome
      split at hsome
      · rename_i only hk
        have hany : (t.columns.any fun c => c.name == only) = true := by
          by_contra hnone
          rw [Bool.not_eq_true] at hnone
          simp [hnone] at hsome
        simpa [hk] using hany
      · contradiction

end Table

namespace Catalog

variable {d : String} {t : Table}

theorem map_name_indices_normalize :
    (normalize d t).indices.map (·.name) = t.indices.map (·.name) := by
  simp [normalize, Table.foldKeys, Table.resolve, Function.comp_def]

/-- Indices that left their schema out live in the one of their table. -/
theorem map_nameIn_indices_normalize :
    (normalize d t).indices.map (Index.nameIn (normalize d t).schema) =
      t.indices.map (Index.nameIn (t.qualifiedName.resolve d).schema) := by
  have hname (i : Index) (schema : String) :
      ({ i with schema := (i.nameIn schema).schema } : Index).nameIn schema = i.nameIn schema := by
    change QualifiedName.resolve schema ⟨(i.nameIn schema).schema, i.name⟩ = _
    rw [Index.nameIn, show i.name = i.qualifiedName.name from rfl, QualifiedName.mk_schema_resolve,
      QualifiedName.resolve_resolve_self]
  simp [normalize, Table.foldKeys, Table.resolve, Function.comp_def, hname]

/-- **The names of constraints that a catalog knows.** The others are forgotten. -/
theorem mem_names_constraints_normalize {n : String} :
    n ∈ (normalize d t).constraints.map (·.name) ↔ ¬ t.ForgetsConstraints n := by
  have hfolds (k : TableConstraint) :
      Table.foldsInto? (t.resolve d).name (t.resolve d).columns k =
        Table.foldsInto? t.name t.columns k :=
    Table.foldsInto?_congr (Table.map_name_columns_resolve d t) k
  simp only [Table.ForgetsConstraints, not_forall, List.mem_map, normalize,
    Table.mem_constraints_foldKeys, hfolds, Table.flags_iff]
  constructor
  · rintro ⟨k, ⟨hk, hnone⟩, rfl⟩
    exact ⟨k, hk, rfl, by simp [hnone]⟩
  · rintro ⟨k, hk, rfl, hnone⟩
    exact ⟨k, ⟨hk, by simpa using hnone⟩, rfl⟩

theorem lacksIndex_normalize_iff {name : QualifiedName} :
    (normalize d t).LacksIndex name ↔
      name ∉ t.indices.map (Index.nameIn (t.qualifiedName.resolve d).schema) ∧
        t.ForgetsConstraints name.name := by
  rw [Table.LacksIndex, map_nameIn_indices_normalize, mem_names_constraints_normalize, not_not]

theorem lacksConstraint_normalize_iff {k : TableConstraint} (hk : k.kind ≠ .primaryKey) :
    (normalize d t).LacksConstraint k ↔
      k.name ∉ t.indices.map (·.name) ∧ t.ForgetsConstraints k.name := by
  rw [Table.LacksConstraint, if_neg hk, map_name_indices_normalize,
    mem_names_constraints_normalize, not_not, and_comm]

end Catalog

/-! ### What is created again -/

namespace Reconcile

variable {s : DeclaredSchema} {c : Catalog} {detectDrift : Bool} {p : Plan}

/-- **The changes of a plan** are those items of declared tables that the catalog lacks and the
dialect can create. -/
theorem mem_actions_iff_of_isChange (h : reconcile c.view s detectDrift = .ok p) {a : Action}
    (ha : a.isChange = true) :
    a ∈ p.actions ↔ (∃ t ∈ s.resolved c.defaultSchema, a ∈ t.items) ∧
      a.isAccepted s.dialect = true ∧ c.Lacks a := by
  obtain ⟨-, created, deferred, -, -, rfl⟩ := reconcile_eq_ok_iff.mp h
  have hchanges : a ∈ (planOf s c detectDrift created deferred).actions ↔ a ∈ changes s c :=
    ⟨mem_changes_of_mem_actions ha,
      fun hmem => List.mem_append_left _ (List.mem_append_right _ hmem)⟩
  rw [hchanges, mem_changes_iff, Catalog.mem_owed_iff, and_assoc, and_comm (a := c.Lacks a)]

end Reconcile

/-- **Which items of an existing table are created again.** Let a catalog hold a table as a database
reports it. A declared index that the dialect can create is created if and only if no reported index
has its name and schema, and flags stand for all reported constraints of its name. A declared
constraint other than a primary key, which is told apart by no name, is created if and only if the
dialect can create it, no reported index has its name, and flags stand for all reported constraints
of its name. So no name is ever forgotten that the database reports for an index, for a key over
several columns or for a key with a name of its own. -/
theorem reconcile_recreates_iff {s : DeclaredSchema} {defaultSchema : String}
    {before after : List Table} {reported : Table} {got : Catalog}
    (hgot : got = Catalog.ofTables defaultSchema (before ++ reported :: after))
    (hlast : ∀ u ∈ after,
      u.qualifiedName.resolve defaultSchema ≠ reported.qualifiedName.resolve defaultSchema)
    {detectDrift : Bool} {p : Plan} (h : reconcile got.view s detectDrift = .ok p) :
    let table := reported.qualifiedName.resolve defaultSchema
    (∀ i, .createIndex table i ∈ p.actions ↔
      (∃ t ∈ s.resolved defaultSchema, t.qualifiedName = table ∧ i ∈ t.indices) ∧
        (s.dialect.createIndex table i).isOk = true ∧
        i.nameIn table.schema ∉ reported.indices.map (Index.nameIn table.schema) ∧
        reported.ForgetsConstraints i.name) ∧
    ∀ k, k.kind ≠ .primaryKey → (.createConstraint table k ∈ p.actions ↔
      (∃ t ∈ s.resolved defaultSchema, t.qualifiedName = table ∧ k ∈ t.constraints) ∧
        (s.dialect.createConstraint table k).isOk = true ∧
        k.name ∉ reported.indices.map (·.name) ∧
        reported.ForgetsConstraints k.name) := by
  intro table
  have hschema : got.defaultSchema = defaultSchema := by
    rw [hgot, Catalog.defaultSchema_ofTables]
  have hfound : got.table? table = some (Catalog.normalize defaultSchema reported) := by
    change got.table? (reported.qualifiedName.resolve defaultSchema) = _
    rw [← hschema, Catalog.table?_resolve, hschema, hgot]
    exact Catalog.table?_ofTables hlast
  have hlacks (a : Action) (ha : a.table = table) :
      got.Lacks a ↔ (Catalog.normalize defaultSchema reported).Lacks a :=
    Catalog.lacks_iff_of_table? (ha.symm ▸ hfound)
  subst hschema
  constructor
  · intro i
    rw [mem_actions_iff_of_isChange h (a := .createIndex table i) rfl, hlacks _ rfl,
      Action.isAccepted_createIndex, Table.Lacks, Catalog.lacksIndex_normalize_iff,
      Index.name_nameIn]
    simp only [Table.createIndex_mem_items]
    exact Iff.rfl
  · intro k hk
    rw [mem_actions_iff_of_isChange h (a := .createConstraint table k) rfl, hlacks _ rfl,
      Action.isAccepted_createConstraint, Table.Lacks, Catalog.lacksConstraint_normalize_iff hk]
    simp only [Table.createConstraint_mem_items]

/-- Films with two unique indices that are declared by name. -/
def titleDefinitions : List TableDef := [
  { name := "film"
    directive := "index=\x7btitle cols=title unique\x7d " ++
      "index=\x7btitle_year cols=title,year unique\x7d"
    columns := [
      { field := "film_id", kind := .number, directive := "primarykey" },
      { field := "title", kind := .string },
      { field := "year", kind := .number }] }]

/-- What these definitions declare. -/
def filmsByTitle : DeclaredSchema where
  dialect := .mysql
  tables := [
    { name := "film"
      columns := [
        { name := "film_id", columnType := "INT", kind := some .number, notNull := true,
          primaryKey := true },
        { name := "title", columnType := "VARCHAR(255)", kind := some .string },
        { name := "year", columnType := "INT", kind := some .number }]
      indices := [
        { name := "title", unique := true, columns := ["title"], exprs := [""] },
        { name := "title_year", unique := true, columns := ["title", "year"],
          exprs := ["", ""] }] }]

/-- The films as MySQL reports them once the indices exist. -/
def filmByTitle : Table where
  schema := "db"
  name := "film"
  columns := [
    { name := "film_id", columnType := "INT", notNull := true, primaryKey := true },
    { name := "title", columnType := "VARCHAR(255)" },
    { name := "year", columnType := "INT" }]
  constraints := [.unique "title" ["title"], .unique "title_year" ["title", "year"]]

/-- The index over the titles. -/
def createTitleIndex : Action :=
  .createIndex ⟨"db", "film"⟩
    { schema := "db", name := "title", unique := true, columns := ["title"], exprs := [""] }

theorem reconcile_filmsByTitle :
    reconcile (Catalog.ofTables "db" [filmByTitle]).view filmsByTitle true =
      .ok { actions := [createTitleIndex], warnings := [] } := by
  decide +kernel

/-- Of the two unique keys that MySQL reports for the indices, the one over two columns is known by
its name. -/
theorem reconcile_recreates_iff_titleYear :
    let titleYear : Index :=
      { schema := "db", name := "title_year", unique := true, columns := ["title", "year"],
        exprs := ["", ""] }
    ∃ p, reconcile (Catalog.ofTables "db" [filmByTitle]).view filmsByTitle true = .ok p ∧
      ¬ filmByTitle.ForgetsConstraints "title_year" ∧
      .createIndex ⟨"db", "film"⟩ titleYear ∉ p.actions := by
  intro titleYear
  have hknown : ¬ filmByTitle.ForgetsConstraints "title_year" := by
    intro hforgets
    obtain ⟨⟨column, hcolumns, -⟩, -⟩ :=
      hforgets (.unique "title_year" ["title", "year"]) (by decide) rfl
    cases hcolumns
  have hgot : Catalog.ofTables "db" [filmByTitle] =
      Catalog.ofTables "db" ([] ++ filmByTitle :: []) := rfl
  have hiff := (reconcile_recreates_iff hgot nofun reconcile_filmsByTitle).1 titleYear
  exact ⟨_, reconcile_filmsByTitle, hknown, fun hmem => hknown (hiff.mp hmem).2.2.2⟩

/-- The name of the other one is forgotten, since it is the name of its column. Its index is created
once more, though MySQL reports a unique key of that name. -/
theorem reconcile_recreatesTitleIndex :
    DeclaredSchema.build .mysql .warn titleDefinitions = .ok filmsByTitle ∧
      TableConstraint.unique "title" ["title"] ∈ filmByTitle.constraints ∧
      ∃ p, reconcile (Catalog.ofTables "db" [filmByTitle]).view filmsByTitle true = .ok p ∧
        p.warnings = [] ∧ createTitleIndex ∈ p.actions := by
  have hbuild : DeclaredSchema.build .mysql .warn titleDefinitions = .ok filmsByTitle := by
    decide +kernel
  exact ⟨hbuild, by decide, _, reconcile_filmsByTitle, rfl, by decide⟩

end AdditiveSchema
