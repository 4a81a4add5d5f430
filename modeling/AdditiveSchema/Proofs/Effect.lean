import AdditiveSchema.Plan.Effect
import AdditiveSchema.Proofs.Catalog

/-!
# What actions do to a catalog

An action touches one table. On a catalog in normal form, actions that are in normal form
themselves just append their item to that table, so what a row of actions does can be read off
table by table, and the catalog stays in normal form.

## Main definitions

* `Action.IsNormal` : the action brings nothing that a catalog would change.
* `Action.act` : what an action does to its table.

## Main results

* `Catalog.table?_applyAll` : the table of a name after a row of actions.
* `Catalog.IsNormal.applyAll` : catalogs stay in normal form.
-/

namespace AdditiveSchema

namespace Action

/-- What the action does to the table of its name, if there is one. -/
def act : Action → Option Table → Option Table
  | .createTable t, _ => some t
  | .createColumn _ c, g => g.map (·.addColumn c)
  | .createConstraint _ k, g => g.map (·.addConstraint k)
  | .createIndex _ i, g => g.map (·.addIndex i)
  | .addForeignKey _ column fk, g =>
    g.map (·.modifyColumn column fun c => { c with references := some fk })

/-- What the actions do to a table of which they are all about. -/
def actAll (as : List Action) (g : Option Table) : Option Table :=
  as.foldl (fun g a => a.act g) g

theorem applyAll_append (c : Catalog) (as bs : List Action) :
    applyAll c (as ++ bs) = applyAll (applyAll c as) bs :=
  List.foldl_append

/-- The schemas of the action are filled in, and no constraint that it brings ever folds. -/
def IsNormal (d : String) : Action → Prop
  | .createTable t => t.IsNormal d
  | .createColumn table c =>
    table.resolve d = table ∧ Table.resolveReference table.schema c = c
  | .createConstraint table k => table.resolve d = table ∧ Table.NeverFolds table.name k
  | .createIndex table i => table.resolve d = table ∧ i.nameIn table.schema = i.qualifiedName
  | .addForeignKey table _ fk =>
    table.resolve d = table ∧ fk.table.resolve table.schema = fk.table

theorem IsNormal.resolve_table {d : String} {a : Action} (h : a.IsNormal d) :
    a.table.resolve d = a.table := by
  cases a with
  | createTable t => exact (Table.resolve_eq_self_iff.mp h.resolve_eq).1
  | createColumn | createConstraint | createIndex | addForeignKey => exact h.1

theorem eq_none_of_act_eq_none {a : Action} {g : Option Table} (h : a.act g = none) :
    g = none := by
  cases a with
  | createTable => cases h
  | createColumn | createConstraint | createIndex | addForeignKey =>
    exact Option.map_eq_none_iff.mp h

/-- No action removes its table. -/
theorem eq_none_of_actAll_eq_none {as : List Action} {g : Option Table}
    (h : actAll as g = none) : g = none := by
  induction as generalizing g with
  | nil => exact h
  | cons a as ih => exact eq_none_of_act_eq_none (ih h)

/-- An action in normal form keeps its table in normal form, under its name. -/
theorem IsNormal.act {d : String} {a : Action} (h : a.IsNormal d) {g : Option Table}
    (hg : ∀ t ∈ g, t.IsNormal d ∧ t.qualifiedName = a.table) :
    ∀ t ∈ a.act g, t.IsNormal d ∧ t.qualifiedName = a.table := by
  intro t ht
  cases a with
  | createTable u =>
    obtain rfl : u = t := Option.some.inj ht
    exact ⟨h, rfl⟩
  | createColumn table c =>
    obtain ⟨u, rfl, rfl⟩ := Option.map_eq_some_iff.mp ht
    obtain ⟨hu, hname⟩ := hg u rfl
    obtain ⟨-, hindices, hcolumns⟩ := Table.resolve_eq_self_iff.mp hu.resolve_eq
    have hschema : u.schema = table.schema := congrArg QualifiedName.schema hname
    rw [← hname]
    refine ⟨hu.of_parts rfl (fun c' hc' => ?_) hu.neverFolds hindices, rfl⟩
    rcases List.mem_append.mp hc' with hc' | hc'
    · exact hcolumns c' hc'
    · rw [List.mem_singleton.mp hc', hschema]
      exact h.2
  | createConstraint table k =>
    obtain ⟨u, rfl, rfl⟩ := Option.map_eq_some_iff.mp ht
    obtain ⟨hu, hname⟩ := hg u rfl
    obtain ⟨-, hindices, hcolumns⟩ := Table.resolve_eq_self_iff.mp hu.resolve_eq
    have hname' : u.name = table.name := congrArg QualifiedName.name hname
    rw [← hname]
    refine ⟨hu.of_parts rfl hcolumns (fun k' hk' => ?_) hindices, rfl⟩
    rcases List.mem_append.mp hk' with hk' | hk'
    · exact hu.neverFolds k' hk'
    · rw [List.mem_singleton.mp hk', hname']
      exact h.2
  | createIndex table i =>
    obtain ⟨u, rfl, rfl⟩ := Option.map_eq_some_iff.mp ht
    obtain ⟨hu, hname⟩ := hg u rfl
    obtain ⟨-, hindices, hcolumns⟩ := Table.resolve_eq_self_iff.mp hu.resolve_eq
    have hschema : u.schema = table.schema := congrArg QualifiedName.schema hname
    rw [← hname]
    refine ⟨hu.of_parts rfl hcolumns hu.neverFolds fun i' hi' => ?_, rfl⟩
    rcases List.mem_append.mp hi' with hi' | hi'
    · exact hindices i' hi'
    · rw [List.mem_singleton.mp hi', hschema]
      exact h.2
  | addForeignKey table column fk =>
    obtain ⟨u, rfl, rfl⟩ := Option.map_eq_some_iff.mp ht
    obtain ⟨hu, hname⟩ := hg u rfl
    obtain ⟨-, hindices, hcolumns⟩ := Table.resolve_eq_self_iff.mp hu.resolve_eq
    have hschema : u.schema = table.schema := congrArg QualifiedName.schema hname
    rw [← hname]
    refine ⟨hu.of_parts rfl (fun c' hc' => ?_) hu.neverFolds hindices, rfl⟩
    rcases mem_of_mem_modifyFirst hc' with hc' | ⟨c, -, rfl⟩
    · exact hcolumns c' hc'
    · rw [Table.resolveReference_eq_self_iff, hschema]
      intro fk' hfk'
      cases hfk'
      exact h.2

end Action

namespace Catalog

variable {c : Catalog} {a : Action} {as : List Action} {n : QualifiedName}

/-- An action inserts what it makes of its table. -/
theorem apply_eq (c : Catalog) (a : Action) :
    Action.apply c a = ((a.act (c.table? a.table)).map c.insert).getD c := by
  cases a with
  | createTable => rfl
  | createColumn table | createConstraint table | createIndex table | addForeignKey table =>
    simp only [Action.apply, update, Action.act, Action.table]
    cases c.table? table <;> rfl

@[simp] theorem defaultSchema_apply (c : Catalog) (a : Action) :
    (Action.apply c a).defaultSchema = c.defaultSchema := by
  rw [apply_eq]
  cases a.act (c.table? a.table) <;> rfl

@[simp] theorem defaultSchema_applyAll (c : Catalog) (as : List Action) :
    (Action.applyAll c as).defaultSchema = c.defaultSchema := by
  induction as generalizing c with
  | nil => rfl
  | cons a as ih => exact (ih (Action.apply c a)).trans (defaultSchema_apply c a)

/-- What a table becomes under an action in normal form is in normal form. -/
theorem IsNormal.act (hc : c.IsNormal) (ha : a.IsNormal c.defaultSchema) :
    ∀ t ∈ a.act (c.table? a.table), t.IsNormal c.defaultSchema ∧ t.qualifiedName = a.table := by
  refine ha.act fun t ht => ⟨hc.table t (mem_of_table? ht), ?_⟩
  rw [qualifiedName_of_table? ht, ha.resolve_table]

/-- **An action touches one table.** -/
theorem table?_apply (hc : c.IsNormal) (ha : a.IsNormal c.defaultSchema)
    (hn : n.resolve c.defaultSchema = n) :
    (Action.apply c a).table? n = if a.table = n then a.act (c.table? n) else c.table? n := by
  rw [apply_eq]
  cases hact : a.act (c.table? a.table) with
  | none =>
    have hnone := Action.eq_none_of_act_eq_none hact
    split
    · rename_i heq
      rw [← heq, hact]
      exact hnone
    · rfl
  | some t =>
    obtain ⟨ht, hname⟩ := hc.act ha t hact
    rw [Option.map_some, Option.getD_some, table?_insert_of_isNormal ht hn, hname]
    split
    · rename_i heq
      rw [← heq, hact]
    · rfl

theorem IsNormal.apply (hc : c.IsNormal) (ha : a.IsNormal c.defaultSchema) :
    (Action.apply c a).IsNormal := by
  rw [apply_eq]
  cases hact : a.act (c.table? a.table) with
  | none => exact hc
  | some t => exact hc.insert (hc.act ha t hact).1

/-- Catalogs stay in normal form. -/
theorem IsNormal.applyAll (hc : c.IsNormal) (has : ∀ a ∈ as, a.IsNormal c.defaultSchema) :
    (Action.applyAll c as).IsNormal := by
  induction as generalizing c with
  | nil => exact hc
  | cons a as ih =>
    refine ih (hc.apply (has a List.mem_cons_self)) fun b hb => ?_
    rw [defaultSchema_apply]
    exact has b (List.mem_cons_of_mem a hb)

/-- **The table of a name after a row of actions** is what those of its name make of it. -/
theorem table?_applyAll (hc : c.IsNormal) (has : ∀ a ∈ as, a.IsNormal c.defaultSchema)
    (hn : n.resolve c.defaultSchema = n) :
    (Action.applyAll c as).table? n =
      Action.actAll (as.filter (·.table == n)) (c.table? n) := by
  induction as generalizing c with
  | nil => rfl
  | cons a as ih =>
    have ha := has a List.mem_cons_self
    have happly := ih (hc.apply ha) (fun b hb => by
      rw [defaultSchema_apply]
      exact has b (List.mem_cons_of_mem a hb)) (by rwa [defaultSchema_apply])
    refine happly.trans ?_
    rw [table?_apply hc ha hn, List.filter_cons]
    by_cases heq : a.table = n
    · rw [if_pos heq, if_pos (beq_iff_eq.mpr heq)]
      rfl
    · rw [if_neg heq, if_neg (by simpa using heq)]

end Catalog

end AdditiveSchema
