import AdditiveSchema.Proofs.Exactness

/-!
# What a plan depends on

A plan only creates, so all it needs to know of an existing table is what is there by name: which
columns, constraints and indices it has, which of the constraints are keys, and whether one of the
columns is the primary key. Types, nullability, defaults, references and everything else of existing
items have no influence on the plan. They only show in the warnings about drift.

## Main definitions

* `Diff.Existing.LooksLike` : two tables are reported with the same names.
* `Catalog.LooksLike` : two catalogs hold tables of the same names, which look alike.
* `Plan.withoutDrift` : a plan without its warnings about drift.

## Main results

* `Diff.missing_congr` : tables that look alike lack the same.
* `reconcile_dependsOnNames` : catalogs that look alike have the same plans.
-/

namespace AdditiveSchema

open Reconcile

/-! ### Tables that look alike -/

namespace Diff

/-- Both tables are reported with the same names: their columns, their constraints, which are of the
same kinds, and their indices. One of the columns is a primary key in both or in neither. -/
structure Existing.LooksLike (e' e : Existing) : Prop where
  columns : ∀ name, name ∈ e'.columns.map (·.name) ↔ name ∈ e.columns.map (·.name)
  primaryKey : e'.columns.any (·.primaryKey) = e.columns.any (·.primaryKey)
  constraints : ∀ named, named ∈ e'.constraints.map (fun k => (k.name, k.kind)) ↔
    named ∈ e.constraints.map fun k => (k.name, k.kind)
  indices : ∀ name, name ∈ e'.indices.map Prod.fst ↔ name ∈ e.indices.map Prod.fst

namespace Existing.LooksLike

variable {e' e : Existing}

theorem isNone_column?_eq (h : e'.LooksLike e) (name : String) :
    (e'.column? name).isNone = (e.column? name).isNone := by
  have hfind (e : Existing) :
      (e.column? name).isNone = !(e.columns.map (·.name)).any (· == name) := by
    rw [List.any_map, column?, ← Option.not_isSome, Bool.eq_iff_iff]
    simp
  rw [hfind, hfind, any_congr_of_mem_iff h.columns]

theorem hasConstraint_eq (h : e'.LooksLike e) (name : String) :
    e'.hasConstraint name = e.hasConstraint name := by
  have hany := any_congr_of_mem_iff h.constraints (·.1 == name)
  rwa [List.any_map, List.any_map] at hany

theorem hasPrimaryKey_eq (h : e'.LooksLike e) : e'.hasPrimaryKey = e.hasPrimaryKey := by
  have hany := any_congr_of_mem_iff h.constraints (·.2 == .primaryKey)
  rw [List.any_map, List.any_map] at hany
  exact congrArg₂ (· || ·) h.primaryKey hany

theorem hasIndexNamed_eq (h : e'.LooksLike e) (name : String) :
    e'.hasIndexNamed name = e.hasIndexNamed name := by
  have hany := any_congr_of_mem_iff h.indices (·.name == name)
  rwa [List.any_map, List.any_map] at hany

theorem hasIndex_eq (h : e'.LooksLike e) (name : QualifiedName) :
    e'.hasIndex name = e.hasIndex name := by
  have hany := any_congr_of_mem_iff h.indices (· == name)
  rwa [List.any_map, List.any_map] at hany

theorem satisfies_eq (h : e'.LooksLike e) (k : TableConstraint) :
    satisfies e' k = satisfies e k := by
  rw [satisfies, satisfies, h.hasPrimaryKey_eq, h.hasConstraint_eq, h.hasIndexNamed_eq]

end Existing.LooksLike

/-- **Tables that look alike lack the same.** -/
theorem missing_congr {e' e : Existing} (h : e'.LooksLike e) (t : Table) :
    missing e' t = missing e t := by
  simp only [missing, missingColumns, missingConstraints, missingIndices, h.isNone_column?_eq,
    h.satisfies_eq, h.hasIndex_eq, h.hasConstraint_eq]

end Diff

/-! ### Catalogs that look alike -/

/-- Both catalogs hold tables of the same names, and tables of one name look alike. -/
structure Catalog.LooksLike (c' c : Catalog) : Prop where
  defaultSchema : c'.defaultSchema = c.defaultSchema
  names : ∀ name, name ∈ c'.names ↔ name ∈ c.names
  tables : ∀ {name : QualifiedName} {g' g : Table}, c'.table? name = some g' →
    c.table? name = some g → (Diff.Existing.ofTable g').LooksLike (.ofTable g)

namespace Catalog

theorem isSome_table?_iff {c : Catalog} {name : QualifiedName} :
    (c.table? name).isSome = true ↔ name.resolve c.defaultSchema ∈ c.names := by
  rw [table?, Keyed.find?, List.find?_isSome, names, List.mem_map]
  simp only [beq_iff_eq]

/-- A name leads to nothing in both catalogs, or to tables that look alike. -/
theorem LooksLike.table? {c' c : Catalog} (h : c'.LooksLike c) (name : QualifiedName) :
    (c'.table? name = none ∧ c.table? name = none) ∨
      ∃ g' g, c'.table? name = some g' ∧ c.table? name = some g ∧
        (Diff.Existing.ofTable g').LooksLike (.ofTable g) := by
  have hsome : (c'.table? name).isSome = (c.table? name).isSome := by
    rw [Bool.eq_iff_iff, isSome_table?_iff, isSome_table?_iff, h.defaultSchema, h.names]
  cases hg' : c'.table? name with
  | none =>
    rw [hg', Option.isSome_none, eq_comm, Option.isSome_eq_false_iff, Option.isNone_iff_eq_none]
      at hsome
    exact Or.inl ⟨rfl, hsome⟩
  | some g' =>
    rw [hg', Option.isSome_some, eq_comm, Option.isSome_iff_exists] at hsome
    obtain ⟨g, hg⟩ := hsome
    exact Or.inr ⟨g', g, rfl, hg, h.tables hg' hg⟩

end Catalog

/-! ### Warnings about drift -/

/-- The warning says that an existing column differs from its declaration. -/
def Warning.isSchemaDrift : Warning → Bool
  | .schemaDrift .. => true
  | _ => false

/-- What was found, without the warnings about drift. -/
def Reconcile.Findings.withoutDrift (f : Findings) : Findings :=
  { f with warnings := f.warnings.filter (!·.isSchemaDrift) }

/-- The plan without its warnings about drift. -/
def Plan.withoutDrift (p : Plan) : Plan :=
  { p with warnings := p.warnings.filter (!·.isSchemaDrift) }

namespace Reconcile

theorem Findings.withoutDrift_append (f g : Findings) :
    (f.append g).withoutDrift = f.withoutDrift.append g.withoutDrift := by
  simp only [withoutDrift, append, List.filter_append]

variable {c' c : Catalog} {detectDrift' detectDrift : Bool}

/-- A table that is not there cannot be read. -/
theorem read_view_of_table?_eq_none {n : QualifiedName} (h : c.table? n = none) :
    Diff.Existing.read c.view n = .error (.missing (n.resolve c.defaultSchema)) := by
  simp only [Diff.Existing.read, Catalog.view, View.ofLookup, Catalog.require, h]
  rfl

/-- All that is remarked about an existing table is drift. -/
theorem filter_isSchemaDrift_remarks (d : Dialect) (e : Diff.Existing) (t : Table)
    (detectDrift : Bool) :
    (if detectDrift then Diff.drift d e t else []).filter (!·.isSchemaDrift) = [] := by
  rw [List.filter_eq_nil_iff]
  intro w hw
  split at hw
  · obtain ⟨_, _, rfl⟩ := eq_schemaDrift_of_mem_drift hw
    exact Bool.noConfusion
  · cases hw

/-- **Comparing a table with catalogs that look alike** finds the same, apart from drift. -/
theorem examine_congr (h : c'.LooksLike c) (d : Dialect) (t : Table) :
    (examine d c'.view detectDrift' t).map Findings.withoutDrift =
      (examine d c.view detectDrift t).map Findings.withoutDrift := by
  have hlisted : c'.view.resolvedNames.contains t.qualifiedName =
      c.view.resolvedNames.contains t.qualifiedName := by
    change (c'.names.map (QualifiedName.resolve c'.defaultSchema)).contains _ =
      (c.names.map (QualifiedName.resolve c.defaultSchema)).contains _
    rw [List.contains_eq_any_beq, List.contains_eq_any_beq, List.any_map, List.any_map,
      h.defaultSchema, any_congr_of_mem_iff h.names]
  rw [examine, examine, hlisted]
  by_cases hcontains : c.view.resolvedNames.contains t.qualifiedName = true
  · rw [if_pos hcontains, if_pos hcontains]
    rcases h.table? t.qualifiedName with ⟨hg', hg⟩ | ⟨g', g, hg', hg, hlook⟩
    · rw [read_view_of_table?_eq_none hg', read_view_of_table?_eq_none hg, h.defaultSchema]
      rfl
    · rw [read_view hg', read_view hg]
      refine congrArg Except.ok ?_
      simp only [Findings.withoutDrift, filter_isSchemaDrift_remarks, Diff.missing_congr hlook]
  · rw [if_neg hcontains, if_neg hcontains]

theorem examineAll_congr (h : c'.LooksLike c) (s : DeclaredSchema) :
    (examineAll s c'.view detectDrift').map Findings.withoutDrift =
      (examineAll s c.view detectDrift).map Findings.withoutDrift := by
  have hschema : c'.view.defaultSchema = c.view.defaultSchema := h.defaultSchema
  rw [examineAll, examineAll, hschema]
  refine Except.map_foldlM_congr (fun t _ f' f hf => ?_) rfl
  refine Except.map_bind_congr (examine_congr h s.dialect _) fun more' more hmore => ?_
  refine congrArg Except.ok ?_
  rw [Findings.withoutDrift_append, Findings.withoutDrift_append, hf, hmore]

end Reconcile

/-- **Catalogs that look alike have the same plans.** Let two catalogs hold tables of the same
names, whose columns, constraints and indices have the same names, whose constraints are of the same
kinds, and of which the same ones have a column that is a primary key. Whatever else differs, and
whether or not drift is to be detected, there is a plan for both or there is the same error. The
plans hold the same actions in the same order and the same warnings, apart from those about
drift. -/
theorem reconcile_dependsOnNames {got' got : Catalog} (h : got'.LooksLike got) (s : DeclaredSchema)
    (detectDrift' detectDrift : Bool) :
    (reconcile got'.view s detectDrift').map Plan.withoutDrift =
      (reconcile got.view s detectDrift).map Plan.withoutDrift := by
  rw [reconcile, reconcile]
  refine Except.map_bind_congr (examineAll_congr h s) fun found' found hfound => ?_
  simp only [Findings.withoutDrift, Findings.mk.injEq] at hfound
  obtain ⟨hnew, hchanges, hwarnings⟩ := hfound
  rw [hnew, hchanges]
  refine Except.map_bind_congr (f := id) rfl ?_
  rintro ⟨created, deferred⟩ _ rfl
  refine Except.map_bind_congr (f := id) rfl ?_
  rintro ⟨changes, refused⟩ _ rfl
  refine Except.map_bind_congr (f := id) rfl ?_
  rintro statements _ rfl
  refine congrArg Except.ok ?_
  simp only [Plan.withoutDrift, List.filter_append, hwarnings]

/-- Whichever types the existing columns have, the year is what films lack. -/
theorem reconcile_dependsOnNames_film :
    let film : Table := {
      name := "film"
      columns := [{ name := "film_id", columnType := "INT", primaryKey := true },
        { name := "title", columnType := "TEXT" }] }
    let s : DeclaredSchema := {
      dialect := .postgres
      tables := [film.addColumn { name := "year", columnType := "INT" }] }
    let got := Catalog.ofTables "public" [film]
    let film' : Table := {
      name := "film"
      columns := [{ name := "film_id", columnType := "UUID", primaryKey := true },
        { name := "title", columnType := "VARCHAR(20)", notNull := true }] }
    let got' := Catalog.ofTables "public" [film']
    ∃ p p', reconcile got.view s false = .ok p ∧ reconcile got'.view s true = .ok p' ∧
      p.actions.length = 1 ∧ p'.actions = p.actions := by
  intro film s got film' got'
  have hlook : got'.LooksLike got := by
    refine ⟨rfl, fun _ => Iff.rfl, fun {name g' g} hg' hg => ?_⟩
    obtain rfl := List.mem_singleton.mp (Catalog.mem_of_table? hg')
    obtain rfl := List.mem_singleton.mp (Catalog.mem_of_table? hg)
    have hcolumns :
        (Diff.Existing.ofTable (Catalog.normalize "public" film')).columns.map (·.name) =
          (Diff.Existing.ofTable (Catalog.normalize "public" film)).columns.map (·.name) := by
      decide
    exact ⟨fun name => Iff.of_eq (congrArg (name ∈ ·) hcolumns), by decide, fun _ => Iff.rfl,
      fun _ => Iff.rfl⟩
  have h : reconcile got.view s false = .ok
      { actions := [.createColumn ⟨"public", "film"⟩ { name := "year", columnType := "INT" }]
        warnings := [] } := by
    decide +kernel
  have hsame := reconcile_dependsOnNames hlook s true false
  rw [h] at hsame
  cases hplan : reconcile got'.view s true with
  | error e =>
    rw [hplan] at hsame
    cases hsame
  | ok p' =>
    rw [hplan] at hsame
    have hactions := congrArg (fun r => r.toOption.map Plan.actions) hsame
    exact ⟨_, p', h, rfl, rfl, Option.some.inj hactions⟩

end AdditiveSchema
