import AdditiveSchema.Proofs.DeclaredItems
import AdditiveSchema.Proofs.UsedColumns

/-!
# Keys of existing tables

A key that is declared on an existing table should be there, or the plan should add it, or else warn
that the dialect cannot add it. The comparison does so with the constraints of the declared table.
But a key for which a flag of its column stands is none of them any more, and the flags of existing
columns are not compared; and a unique key is taken for one that is there if any constraint has its
name, be it a check. Keys of both kinds are passed over in silence.

## Main definitions

* `Table.HasKey` : a table has a key in one of the forms in which databases report it.
* `Table.PassesOver` : the comparison with a table does not look at a key.
* `Plan.Answers`, `Plan.Ignores` : a plan adds a key or warns about it, or does neither.

## Main results

* `reconcile_answersKey` : which declared keys of existing tables plans answer for.
-/

namespace AdditiveSchema

open Reconcile

/-! ### Keys that a table has -/

namespace Table

variable {g : Table} {k : TableConstraint}

/-- The table has the key: a key or an index has its name, or its only column is unique or the
primary key, or it is a primary key and the table has one. -/
def HasKey (g : Table) (k : TableConstraint) : Prop :=
  (∃ k' ∈ g.constraints, k'.name = k.name ∧ k'.kind ≠ .check) ∨
    k.name ∈ g.indices.map (·.name) ∨
    (∃ c ∈ g.columns, k.columns = [c.name] ∧ (c.unique = true ∨ c.primaryKey = true)) ∨
    k.kind = .primaryKey ∧
      ((∃ c ∈ g.columns, c.primaryKey = true) ∨ ∃ k' ∈ g.constraints, k'.kind = .primaryKey)

instance (g : Table) (k : TableConstraint) : Decidable (g.HasKey k) :=
  inferInstanceAs (Decidable (_ ∨ _))

/-- A table that is reported with a primary key has every primary key. -/
theorem hasKey_of_reportsPrimaryKey (hkind : k.kind = .primaryKey) (h : g.ReportsPrimaryKey) :
    g.HasKey k := by
  refine Or.inr (Or.inr (Or.inr ⟨hkind, ?_⟩))
  rcases h with ⟨c, hc, hflag⟩ | ⟨k', hk', hkind'⟩
  · exact Or.inl ⟨c, Keyed.mem_of_mem_ofList hc, hflag⟩
  · exact Or.inr ⟨k', Keyed.mem_of_mem_ofList hk', hkind'⟩

/-- The comparison of a declared table with this one does not look at the key: a flag stands for it,
or it is a unique key and some constraint has its name. -/
def PassesOver (g : Table) (k : TableConstraint) : Prop :=
  k.IsFlag g.name ∨ k.kind = .unique ∧ k.name ∈ g.constraints.map (·.name)

/-- A key that the table does not have and that is not passed over is lacking. -/
theorem lacksConstraint_of_not_hasKey (hkind : k.kind = .primaryKey ∨ k.kind = .unique)
    (hlacks : ¬ g.HasKey k) (hpass : ¬ g.PassesOver k) : g.LacksConstraint k := by
  rcases hkind with hprimary | hunique
  · rw [LacksConstraint, if_pos hprimary]
    exact fun hreports => hlacks (hasKey_of_reportsPrimaryKey hprimary hreports)
  · rw [LacksConstraint, if_neg (by rw [hunique]; decide)]
    exact ⟨fun hname => hpass (Or.inr ⟨hunique, hname⟩),
      fun hname => hlacks (Or.inr (Or.inl hname))⟩

end Table

/-! ### Plans and keys -/

/-- The plan adds the key to the table, or it warns that the dialect cannot add it. -/
def Plan.Answers (p : Plan) (d : Dialect) (table : QualifiedName) (k : TableConstraint) : Prop :=
  .createConstraint table k ∈ p.actions ∨
    ∃ e, d.createConstraint table k = .error e ∧ .unsupported table e.message ∈ p.warnings

/-- The plan does not add the key to the table, and where it warns that the dialect cannot add an
item to the table, it is another one that the table lacks. -/
structure Plan.Ignores (p : Plan) (d : Dialect) (got : Catalog) (table : QualifiedName)
    (k : TableConstraint) : Prop where
  notMem_actions : .createConstraint table k ∉ p.actions
  warnings : ∀ detail, .unsupported table detail ∈ p.warnings →
    ∃ a, a ≠ .createConstraint table k ∧ a.table = table ∧ got.Lacks a ∧
      ∃ e, a.statements d = .error e ∧ e.message = detail

namespace Reconcile

variable {s : DeclaredSchema} {c : Catalog} {detectDrift : Bool} {created : List Table}
  {deferred : List Deferral} {table : QualifiedName} {k : TableConstraint} {t g : Table}

/-- A constraint that is lacking is added, or it is refused with a warning. -/
theorem answers_planOf (ht : t ∈ s.resolved c.defaultSchema)
    (hg : c.table? t.qualifiedName = some g) (hk : k ∈ t.constraints)
    (hlacks : g.LacksConstraint k) :
    (planOf s c detectDrift created deferred).Answers s.dialect t.qualifiedName k := by
  have hitem : .createConstraint t.qualifiedName k ∈ t.items :=
    List.mem_append_left _ (List.mem_append_right _ (List.mem_map_of_mem hk))
  have howed : .createConstraint t.qualifiedName k ∈ c.owed (s.resolved c.defaultSchema) :=
    Catalog.mem_owed_iff.mpr ⟨⟨t, ht, hitem⟩, (Catalog.lacks_iff_of_table? hg).mpr hlacks⟩
  rcases mem_actions_or_refused howed with hmem | ⟨e, he, hwarning⟩
  · exact Or.inl hmem
  · exact Or.inr ⟨e, Except.map_eq_error_iff.mp he, hwarning⟩

/-- What is remarked about declared tables says nothing about items that the dialect cannot add to
an existing table. -/
theorem unsupported_notMem_remarks {d : Dialect} (hg : c.table? table = some g) (detail : String) :
    .unsupported table detail ∉ remarks d c detectDrift t := by
  intro h
  unfold remarks at h
  split at h
  · split at h
    · obtain ⟨_, _, heq⟩ := eq_schemaDrift_of_mem_drift h
      cases heq
    · cases h
  · rename_i hnone
    obtain ⟨i, -, hi⟩ := List.mem_filterMap.mp h
    obtain ⟨_, heq⟩ := eq_unsupported_of_refusal? hi
    cases heq
    cases hg.symm.trans hnone

/-- A constraint that is not owed is neither added nor warned about. -/
theorem ignores_planOf (howed : .createConstraint table k ∉ c.owed (s.resolved c.defaultSchema))
    (hg : c.table? table = some g) (hown : ∀ w ∈ s.warnings, w.isUnsupported = false) :
    (planOf s c detectDrift created deferred).Ignores s.dialect c table k := by
  constructor
  · exact fun h => howed (mem_changes_iff.mp (mem_changes_of_mem_actions rfl h)).1
  intro detail h
  simp only [planOf, List.mem_append] at h
  rcases h with ((h | h) | h) | h
  · cases hown _ h
  · obtain ⟨t, -, h⟩ := List.mem_flatMap.mp h
    exact absurd h (unsupported_notMem_remarks hg detail)
  · obtain ⟨a, ha, hrefused⟩ := List.mem_filterMap.mp h
    have hmem := (ChangeOrder.perm_order _).mem_iff.mp ha
    unfold refusal? at hrefused
    split at hrefused
    · cases hrefused
    · rename_i e he
      cases hrefused
      exact ⟨a, fun heq => howed (heq ▸ hmem), rfl, (Catalog.mem_owed_iff.mp hmem).2, e, he, rfl⟩
  · obtain ⟨_, -, heq⟩ := List.mem_map.mp h
    cases heq

/-- A key that is passed over is not owed. -/
theorem createConstraint_notMem_owed {d : Dialect} {policy : ModifierPolicy}
    {definitions : List TableDef} (hbuild : DeclaredSchema.build d policy definitions = .ok s)
    (hg : c.table? table = some g) (hpass : g.PassesOver k) :
    .createConstraint table k ∉ c.owed (s.resolved c.defaultSchema) := by
  intro howed
  obtain ⟨⟨t, ht, hitem⟩, hlacks⟩ := Catalog.mem_owed_iff.mp howed
  rcases hpass with hflag | ⟨hunique, hname⟩
  · have htable : table = t.qualifiedName := Table.table_of_mem_items hitem
    have hname : g.name = t.name := by
      rw [Catalog.name_of_table? hg, htable]
      rfl
    have hk : k ∈ t.constraints := by
      simp only [Table.items, List.mem_append, List.mem_map] at hitem
      rcases hitem with (⟨_, -, heq⟩ | ⟨k', hk', heq⟩) | ⟨_, -, heq⟩ <;> cases heq
      exact hk'
    obtain ⟨u, hu, rfl⟩ := List.mem_map.mp ht
    have hnever : Table.NeverFolds u.name k := DeclaredSchema.neverFolds_of_build hbuild u hu k hk
    exact Table.neverFolds_iff.mp hnever (hname ▸ hflag)
  · have hlacks : g.LacksConstraint k := (Catalog.lacks_iff_of_table? hg).mp hlacks
    rw [Table.LacksConstraint, if_neg (by rw [hunique]; decide)] at hlacks
    exact hlacks.1 hname

end Reconcile

/-- **Which declared keys of existing tables plans answer for.** Let a definition declare a key, and
let its table exist without the key. The plan adds the key or warns that the dialect cannot add it,
unless the comparison passes over the key: because a flag of its only column stands for it, or
because it is a unique key and some constraint of the table has its name. Then the plan neither adds
the key nor warns about it. -/
theorem reconcile_answersKey {d : Dialect} {policy : ModifierPolicy}
    {definitions : List TableDef} {s : DeclaredSchema}
    (hbuild : DeclaredSchema.build d policy definitions = .ok s) {declared : TableDef}
    (hdeclared : declared ∈ definitions) (hskip : declared.isSkippedIn d = false)
    {k : TableConstraint} (hk : k ∈ declared.keys) {got : Catalog} {table : QualifiedName}
    (htable : (declared.nameIn d).resolve got.defaultSchema = table) {g : Table}
    (hg : got.table? table = some g) {detectDrift : Bool} {p : Plan}
    (h : reconcile got.view s detectDrift = .ok p) (hlacks : ¬ g.HasKey k) :
    (¬ g.PassesOver k → p.Answers d table k) ∧ (g.PassesOver k → p.Ignores d got table k) := by
  obtain rfl := DeclaredSchema.dialect_of_build hbuild
  obtain ⟨-, created, deferred, -, -, rfl⟩ := reconcile_eq_ok_iff.mp h
  constructor
  · intro hpass
    obtain ⟨t, ht, hname, hkeys⟩ :=
      DeclaredSchema.exists_mem_tables_of_build hbuild hdeclared hskip
    have hqualified : (t.resolve got.defaultSchema).qualifiedName = table := by
      rw [Table.qualifiedName_resolve, hname, htable]
    have hgname : g.name = t.name := by
      rw [Catalog.name_of_table? hg, ← hqualified]
      rfl
    have hmem : k ∈ t.constraints := hkeys k hk fun hflag => hpass (Or.inl (hgname ▸ hflag))
    subst hqualified
    exact answers_planOf (List.mem_map_of_mem ht) hg hmem
      (Table.lacksConstraint_of_not_hasKey (TableDef.kind_of_mem_keys hk) hlacks hpass)
  · intro hpass
    refine ignores_planOf (createConstraint_notMem_owed hbuild hg hpass) hg fun w hw => ?_
    obtain ⟨_, _, rfl⟩ := DeclaredSchema.warnings_of_build hbuild hw
    rfl

/-- Films have titles, and the directive of their table declares a key. -/
def titleDefinition (directive : String) : TableDef where
  name := "film"
  directive := directive
  columns := [
    { field := "film_id", kind := .number, directive := "primarykey" },
    { field := "title", kind := .string }]

/-- What the definition declares, if the key becomes a flag of the title or stays a constraint. -/
def filmsWithKey (unique : Bool) (constraints : List TableConstraint) : DeclaredSchema where
  dialect := .postgres
  tables := [
    { name := "film"
      columns := [
        { name := "film_id", columnType := "INT", kind := some .number, notNull := true,
          primaryKey := true },
        { name := "title", columnType := "TEXT", kind := some .string, unique := unique }]
      constraints := constraints }]

/-- Films with titles and without further keys. -/
def filmsWithoutKey : Table where
  schema := "public"
  name := "film"
  columns := [
    { name := "film_id", columnType := "INT", notNull := true, primaryKey := true },
    { name := "title", columnType := "TEXT" }]

/-- A key over two columns is added. -/
theorem reconcile_answersKey_filmAndTitle :
    let declared := titleDefinition "unique=\x7b. cols=film_id,title\x7d"
    let k := TableConstraint.unique "film_film_id_title_key" ["film_id", "title"]
    let got := Catalog.ofTables "public" [filmsWithoutKey]
    DeclaredSchema.build .postgres .warn [declared] = .ok (filmsWithKey false [k]) ∧
      k ∈ declared.keys ∧ ¬ filmsWithoutKey.HasKey k ∧
      ∃ p, reconcile got.view (filmsWithKey false [k]) false = .ok p ∧
        p.Answers .postgres ⟨"public", "film"⟩ k := by
  intro declared k got
  have hbuild : DeclaredSchema.build .postgres .warn [declared] = .ok (filmsWithKey false [k]) := by
    decide +kernel
  have hk : k ∈ declared.keys := by
    have hkeys : declared.keys = [k] := by decide +kernel
    rw [hkeys]
    exact List.mem_cons_self
  have htable : (declared.nameIn .postgres).resolve got.defaultSchema = ⟨"public", "film"⟩ := by
    decide +kernel
  have hlacks : ¬ filmsWithoutKey.HasKey k := by decide
  have h : reconcile got.view (filmsWithKey false [k]) false = .ok
      { actions := [.createConstraint ⟨"public", "film"⟩ k], warnings := [] } := by
    decide +kernel
  refine ⟨hbuild, hk, hlacks, _, h, ?_⟩
  refine (reconcile_answersKey hbuild List.mem_cons_self rfl hk htable rfl h hlacks).1 ?_
  rintro (⟨column, hcolumns, -⟩ | ⟨-, hname⟩)
  · cases hcolumns
  · cases hname

/-- A key over the title alone is ignored: titles are not unique, and the plan is empty. -/
theorem reconcile_ignoresUniqueTitle :
    let declared := titleDefinition "unique=\x7b. cols=title\x7d"
    let k := TableConstraint.unique "film_title_key" ["title"]
    let got := Catalog.ofTables "public" [filmsWithoutKey]
    DeclaredSchema.build .postgres .warn [declared] = .ok (filmsWithKey true []) ∧
      k ∈ declared.keys ∧
      (declared.nameIn .postgres).resolve got.defaultSchema = ⟨"public", "film"⟩ ∧
      got.table? ⟨"public", "film"⟩ = some filmsWithoutKey ∧
      (∀ name ∈ k.columns, name ∈ filmsWithoutKey.columns.map (·.name)) ∧
      ¬ filmsWithoutKey.HasKey k ∧
      ∃ p, reconcile got.view (filmsWithKey true []) true = .ok p ∧
        p.actions = [] ∧ p.warnings = [] := by
  intro declared k got
  have hbuild : DeclaredSchema.build .postgres .warn [declared] = .ok (filmsWithKey true []) := by
    decide +kernel
  have hk : k ∈ declared.keys := by
    have hkeys : declared.keys = [k] := by decide +kernel
    rw [hkeys]
    exact List.mem_cons_self
  have htable : (declared.nameIn .postgres).resolve got.defaultSchema = ⟨"public", "film"⟩ := by
    decide +kernel
  have h : reconcile got.view (filmsWithKey true []) true =
      .ok { actions := [], warnings := [] } := by
    decide +kernel
  exact ⟨hbuild, hk, htable, rfl, by decide, by decide, _, h, rfl, rfl⟩

end AdditiveSchema
