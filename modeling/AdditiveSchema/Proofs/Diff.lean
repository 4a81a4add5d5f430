import AdditiveSchema.Plan.Diff
import AdditiveSchema.Proofs.ChangeOrder
import AdditiveSchema.Proofs.Keyed
import AdditiveSchema.Proofs.Table.NormalForm

/-!
# What a table lacks

The diff of a declared table with an existing one gives those items of the declared table that the
existing one lacks, each once and in order. Whether an item is lacked is said here in terms of the
tables themselves, without the lists by name that a view gives.

## Main definitions

* `Table.items` : the columns, constraints and indices of a table, as the actions that add them.
* `Table.Lacks` : a table lacks what the action would add.

## Main results

* `Diff.missing_eq_filter` : the diff of a declared table with an existing one.
-/

namespace AdditiveSchema

@[simp] theorem Index.name_nameIn (schema : String) (i : Index) : (i.nameIn schema).name = i.name :=
  QualifiedName.name_resolve schema i.qualifiedName

namespace Table

/-- The table reports a primary key, as a flag of a column or as a constraint. -/
def ReportsPrimaryKey (g : Table) : Prop :=
  (∃ c ∈ g.columnsByName, c.primaryKey = true) ∨ ∃ k ∈ g.constraintsByName, k.kind = .primaryKey

instance (g : Table) : Decidable g.ReportsPrimaryKey :=
  inferInstanceAs (Decidable (_ ∨ _))

/-- No column has that name. -/
def LacksColumn (g : Table) (name : String) : Prop :=
  name ∉ g.columns.map (·.name)

instance (g : Table) (name : String) : Decidable (g.LacksColumn name) :=
  inferInstanceAs (Decidable (¬ _))

/-- There is no primary key at all, if the constraint is one, and else neither a constraint nor an
index of its name. -/
def LacksConstraint (g : Table) (k : TableConstraint) : Prop :=
  if k.kind = .primaryKey then ¬ g.ReportsPrimaryKey
  else k.name ∉ g.constraints.map (·.name) ∧ k.name ∉ g.indices.map (·.name)

instance (g : Table) (k : TableConstraint) : Decidable (g.LacksConstraint k) :=
  inferInstanceAs (Decidable (ite _ _ _))

/-- There is neither an index of that name and schema nor a constraint of that name. -/
def LacksIndex (g : Table) (name : QualifiedName) : Prop :=
  name ∉ g.indices.map (Index.nameIn g.schema) ∧ name.name ∉ g.constraints.map (·.name)

instance (g : Table) (name : QualifiedName) : Decidable (g.LacksIndex name) :=
  inferInstanceAs (Decidable (_ ∧ _))

/-- The table lacks what the action would add to it. -/
def Lacks (g : Table) : Action → Prop
  | .createColumn _ c => g.LacksColumn c.name
  | .createConstraint _ k => g.LacksConstraint k
  | .createIndex table i => g.LacksIndex (i.nameIn table.schema)
  | .createTable _ | .addForeignKey .. => False

instance (g : Table) : DecidablePred g.Lacks
  | .createColumn _ c => inferInstanceAs (Decidable (g.LacksColumn c.name))
  | .createConstraint _ k => inferInstanceAs (Decidable (g.LacksConstraint k))
  | .createIndex table i => inferInstanceAs (Decidable (g.LacksIndex (i.nameIn table.schema)))
  | .createTable _ | .addForeignKey .. => inferInstanceAs (Decidable False)

/-- The columns, constraints and indices of the table, as the actions that add them. -/
def items (t : Table) : List Action :=
  t.columns.map (.createColumn t.qualifiedName) ++
    t.constraints.map (.createConstraint t.qualifiedName) ++
    t.indices.map (.createIndex t.qualifiedName)

theorem createColumn_mem_items {t : Table} {table : QualifiedName} {c : Column} :
    .createColumn table c ∈ t.items ↔ t.qualifiedName = table ∧ c ∈ t.columns := by
  simp [items, and_comm]

theorem createConstraint_mem_items {t : Table} {table : QualifiedName} {k : TableConstraint} :
    .createConstraint table k ∈ t.items ↔ t.qualifiedName = table ∧ k ∈ t.constraints := by
  simp [items, and_comm]

theorem createIndex_mem_items {t : Table} {table : QualifiedName} {i : Index} :
    .createIndex table i ∈ t.items ↔ t.qualifiedName = table ∧ i ∈ t.indices := by
  simp [items, and_comm]

theorem isChange_of_mem_items {t : Table} {a : Action} (h : a ∈ t.items) :
    a.isChange = true := by
  simp only [items, List.mem_append, List.mem_map] at h
  rcases h with (⟨_, -, rfl⟩ | ⟨_, -, rfl⟩) | ⟨_, -, rfl⟩ <;> rfl

theorem table_of_mem_items {t : Table} {a : Action} (h : a ∈ t.items) :
    a.table = t.qualifiedName := by
  simp only [items, List.mem_append, List.mem_map] at h
  rcases h with (⟨_, -, rfl⟩ | ⟨_, -, rfl⟩) | ⟨_, -, rfl⟩ <;> rfl

end Table

namespace Diff

/-- What the view of a catalog tells about a table of it. -/
def Existing.ofTable (g : Table) : Existing where
  columns := g.columnsByName
  constraints := g.constraintsByName
  indices := g.indicesByName

variable {g : Table}

theorem isNone_column?_iff {name : String} :
    ((Existing.ofTable g).column? name).isNone = true ↔ g.LacksColumn name := by
  have h : (g.columnsByName.any fun c => c.name == name) = _ :=
    Keyed.any_key_ofList name g.columns
  rw [Table.LacksColumn, ← Keyed.any_key_iff, ← h, Option.isNone_iff_eq_none, Existing.column?,
    List.find?_eq_none, List.any_eq_true]
  simp [Existing.ofTable]

theorem hasConstraint_iff {name : String} :
    (Existing.ofTable g).hasConstraint name = true ↔ name ∈ g.constraints.map (·.name) := by
  rw [← Keyed.any_key_iff, ← Keyed.any_key_ofList]
  rfl

theorem hasIndex_iff {name : QualifiedName} :
    (Existing.ofTable g).hasIndex name = true ↔
      name ∈ g.indices.map (Index.nameIn g.schema) := by
  have h : (g.indicesByName.any fun x => x.1 == name) = _ := Keyed.any_key_ofList name _
  have hmap : g.indices.map (Index.nameIn g.schema) =
      (g.indices.map fun i => (i.nameIn g.schema, i)).map Prod.fst := by
    rw [List.map_map]
    rfl
  rw [hmap, ← Keyed.any_key_iff, ← h]
  rfl

/-- Every index of the table is reported under its name. -/
theorem hasIndexNamed_iff {name : String} :
    (Existing.ofTable g).hasIndexNamed name = true ↔ name ∈ g.indices.map (·.name) := by
  rw [Existing.hasIndexNamed, List.any_eq_true]
  constructor
  · rintro ⟨x, hx, hname⟩
    obtain ⟨i, hi, rfl⟩ := List.mem_map.mp (Keyed.mem_of_mem_ofList hx)
    exact List.mem_map.mpr ⟨i, hi, by simpa using hname⟩
  · intro h
    obtain ⟨i, hi, rfl⟩ := List.mem_map.mp h
    obtain ⟨x, hx, hname⟩ := List.any_eq_true.mp (hasIndex_iff.mpr (List.mem_map_of_mem hi))
    exact ⟨x, hx, by simp [eq_of_beq hname]⟩

theorem hasPrimaryKey_iff :
    (Existing.ofTable g).hasPrimaryKey = true ↔ g.ReportsPrimaryKey := by
  rw [Existing.hasPrimaryKey, Bool.or_eq_true, List.any_eq_true, List.any_eq_true]
  simp only [beq_iff_eq]
  rfl

theorem satisfies_iff {k : TableConstraint} :
    satisfies (Existing.ofTable g) k = true ↔ ¬ g.LacksConstraint k := by
  by_cases hk : k.kind = .primaryKey
  · rw [Table.LacksConstraint, if_pos hk, not_not, ← hasPrimaryKey_iff, satisfies, hk]
  · rw [Table.LacksConstraint, if_neg hk, ← hasConstraint_iff, ← hasIndexNamed_iff, ← not_or,
      not_not, ← Bool.or_eq_true]
    unfold satisfies
    split
    · contradiction
    · rfl

theorem lacksIndex_iff {schema : String} {i : Index} :
    (!(Existing.ofTable g).hasIndex (i.nameIn schema) &&
      !(Existing.ofTable g).hasConstraint i.name) = true ↔ g.LacksIndex (i.nameIn schema) := by
  rw [Bool.and_eq_true, Bool.not_eq_true', Bool.not_eq_true', ← Bool.not_eq_true,
    ← Bool.not_eq_true, hasIndex_iff, hasConstraint_iff, Table.LacksIndex, Index.name_nameIn]

/-- **The diff of a declared table with an existing one** gives what the existing one lacks. -/
theorem missing_eq_filter (g t : Table) :
    missing (Existing.ofTable g) t = t.items.filter (g.Lacks ·) := by
  rw [missing, missingColumns, missingConstraints, missingIndices, Table.items, List.filter_append,
    List.filter_append, List.filter_map, List.filter_map, List.filter_map]
  congr 1
  · congr 1
    · refine congrArg _ (List.filter_congr fun c _ => ?_)
      rw [Bool.eq_iff_iff, isNone_column?_iff, Function.comp_apply, decide_eq_true_iff]
      rfl
    · refine congrArg _ (List.filter_congr fun k _ => ?_)
      rw [Bool.eq_iff_iff, Bool.not_eq_true', ← Bool.not_eq_true, satisfies_iff, not_not,
        Function.comp_apply, decide_eq_true_iff]
      rfl
  · refine congrArg _ (List.filter_congr fun i _ => ?_)
    rw [Bool.eq_iff_iff, lacksIndex_iff, Function.comp_apply, decide_eq_true_iff]
    rfl

end Diff

end AdditiveSchema
