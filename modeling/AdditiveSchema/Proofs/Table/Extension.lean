import AdditiveSchema.Proofs.Diff
import AdditiveSchema.Proofs.Effect

/-!
# Tables with added items

Changes append columns, constraints and indices to a table. If the table lacked each of these, it
lacks none of them afterwards, and it lacks nothing that it did not lack before: what is added
under a new name hides nothing that was there.

## Main definitions

* `Table.extend` : a table with all items that a row of changes adds.

## Main results

* `Table.actAll_eq_extend` : what a row of changes does to a table.
* `Table.lacks_of_lacks_extend` : changes unsettle nothing.
* `Table.not_lacks_extend` : changes settle what they add.
-/

namespace AdditiveSchema

namespace Action

/-- The column that the action adds to its table. -/
def column? : Action → Option Column
  | .createColumn _ c => some c
  | _ => none

/-- The constraint that the action adds to its table. -/
def constraint? : Action → Option TableConstraint
  | .createConstraint _ k => some k
  | _ => none

/-- The index that the action adds to its table. -/
def index? : Action → Option Index
  | .createIndex _ i => some i
  | _ => none

end Action

namespace Table

/-- The table with all items that the changes add. -/
def extend (g : Table) (as : List Action) : Table :=
  { g with
    columns := g.columns ++ as.filterMap Action.column?
    constraints := g.constraints ++ as.filterMap Action.constraint?
    indices := g.indices ++ as.filterMap Action.index? }

@[simp] theorem extend_nil (g : Table) : g.extend [] = g := by
  simp [extend]

theorem extend_append (g : Table) (as bs : List Action) :
    g.extend (as ++ bs) = (g.extend as).extend bs := by
  simp only [extend, List.filterMap_append, List.append_assoc]

theorem act_eq_extend {a : Action} (h : a.isChange = true) (g : Table) :
    a.act (some g) = some (g.extend [a]) := by
  cases a with
  | createColumn | createConstraint | createIndex =>
    simp only [extend, List.filterMap_cons, List.filterMap_nil, Action.column?, Action.constraint?,
      Action.index?, List.append_nil]
    rfl
  | createTable | addForeignKey => cases h

/-- Changes append their items to the table. -/
theorem actAll_eq_extend {as : List Action} (h : ∀ a ∈ as, a.isChange = true) (g : Table) :
    Action.actAll as (some g) = some (g.extend as) := by
  induction as generalizing g with
  | nil => simp [Action.actAll, extend]
  | cons a as ih =>
    have ih := ih (fun b hb => h b (List.mem_cons_of_mem a hb)) (g.extend [a])
    rw [← extend_append, List.singleton_append, ← act_eq_extend (h a List.mem_cons_self)] at ih
    exact ih

end Table

namespace Action

variable {as : List Action}

theorem mem_column? {c : Column} :
    c ∈ as.filterMap column? ↔ ∃ table, .createColumn table c ∈ as := by
  rw [List.mem_filterMap]
  constructor
  · rintro ⟨a, ha, hc⟩
    cases a with
    | createColumn table c' =>
      cases hc
      exact ⟨table, ha⟩
    | createTable | createConstraint | createIndex | addForeignKey => cases hc
  · rintro ⟨table, ha⟩
    exact ⟨_, ha, rfl⟩

theorem mem_constraint? {k : TableConstraint} :
    k ∈ as.filterMap constraint? ↔ ∃ table, .createConstraint table k ∈ as := by
  rw [List.mem_filterMap]
  constructor
  · rintro ⟨a, ha, hk⟩
    cases a with
    | createConstraint table k' =>
      cases hk
      exact ⟨table, ha⟩
    | createTable | createColumn | createIndex | addForeignKey => cases hk
  · rintro ⟨table, ha⟩
    exact ⟨_, ha, rfl⟩

theorem mem_index? {i : Index} :
    i ∈ as.filterMap index? ↔ ∃ table, .createIndex table i ∈ as := by
  rw [List.mem_filterMap]
  constructor
  · rintro ⟨a, ha, hi⟩
    cases a with
    | createIndex table i' =>
      cases hi
      exact ⟨table, ha⟩
    | createTable | createColumn | createConstraint | addForeignKey => cases hi
  · rintro ⟨table, ha⟩
    exact ⟨_, ha, rfl⟩

end Action

namespace Table

variable {g : Table} {as : List Action}

/-- A primary key that is reported stays reported when lacking items are added. -/
theorem reportsPrimaryKey_extend (has : ∀ a ∈ as, g.Lacks a) (h : g.ReportsPrimaryKey) :
    (g.extend as).ReportsPrimaryKey := by
  rcases h with ⟨c, hc, hflag⟩ | ⟨k, hk, hkind⟩
  · refine Or.inl ⟨c, Keyed.mem_ofList_append_iff.mpr (Or.inr ⟨hc, fun c' hc' hname => ?_⟩), hflag⟩
    obtain ⟨table, ha⟩ := Action.mem_column?.mp hc'
    exact has _ ha (hname ▸ List.mem_map_of_mem (Keyed.mem_of_mem_ofList hc))
  · refine Or.inr ⟨k, Keyed.mem_ofList_append_iff.mpr (Or.inr ⟨hk, fun k' hk' hname => ?_⟩), hkind⟩
    obtain ⟨table, ha⟩ := Action.mem_constraint?.mp hk'
    have hlacks : g.LacksConstraint k' := has _ ha
    unfold LacksConstraint at hlacks
    split at hlacks
    · exact hlacks (Or.inr ⟨k, hk, hkind⟩)
    · exact hlacks.1 (hname ▸ List.mem_map_of_mem (Keyed.mem_of_mem_ofList hk))

/-- A primary key that is added is reported, if no later constraint has its name. -/
theorem reportsPrimaryKey_of_mem {table : QualifiedName} {k : TableConstraint}
    (hnames : ((as.filterMap Action.constraint?).map (·.name)).Nodup)
    (h : .createConstraint table k ∈ as) (hkind : k.kind = .primaryKey) :
    (g.extend as).ReportsPrimaryKey := by
  refine Or.inr ⟨k, Keyed.mem_ofList_append_iff.mpr (Or.inl ?_), hkind⟩
  exact (Keyed.mem_ofList_of_nodup hnames).mpr (Action.mem_constraint?.mpr ⟨table, h⟩)

/-- **Changes unsettle nothing.** What a table lacks after lacking items were added, it lacked
before. -/
theorem lacks_of_lacks_extend (has : ∀ a ∈ as, g.Lacks a) {b : Action}
    (h : (g.extend as).Lacks b) : g.Lacks b := by
  cases b with
  | createColumn table c => exact fun hc => h (by simp_all [extend])
  | createConstraint table k =>
    change (g.extend as).LacksConstraint k at h
    change g.LacksConstraint k
    unfold LacksConstraint at h ⊢
    split
    · rename_i hkind
      rw [if_pos hkind] at h
      exact fun hreports => h (reportsPrimaryKey_extend has hreports)
    · rename_i hkind
      rw [if_neg hkind] at h
      exact ⟨fun hk => h.1 (by simp_all [extend]), fun hi => h.2 (by simp_all [extend])⟩
  | createIndex table i =>
    exact ⟨fun hi => h.1 (by simp_all [extend]), fun hk => h.2 (by simp_all [extend])⟩
  | createTable | addForeignKey => exact h

/-- **Changes settle what they add.** -/
theorem not_lacks_extend (hnames : ((as.filterMap Action.constraint?).map (·.name)).Nodup)
    {b : Action} (hb : b ∈ as) (htable : b.table = g.qualifiedName) : ¬ (g.extend as).Lacks b := by
  intro h
  cases b with
  | createColumn table c =>
    refine h (List.mem_map.mpr ⟨c, ?_, rfl⟩)
    exact List.mem_append_right _ (Action.mem_column?.mpr ⟨table, hb⟩)
  | createConstraint table k =>
    change (g.extend as).LacksConstraint k at h
    unfold LacksConstraint at h
    split at h
    · rename_i hkind
      exact h (reportsPrimaryKey_of_mem hnames hb hkind)
    · refine h.1 (List.mem_map.mpr ⟨k, ?_, rfl⟩)
      exact List.mem_append_right _ (Action.mem_constraint?.mpr ⟨table, hb⟩)
  | createIndex table i =>
    have hschema : table.schema = g.schema := congrArg QualifiedName.schema htable
    refine h.1 (List.mem_map.mpr ⟨i, ?_, by rw [hschema]; rfl⟩)
    exact List.mem_append_right _ (Action.mem_index?.mpr ⟨table, hb⟩)
  | createTable | addForeignKey => exact h

end Table

end AdditiveSchema
