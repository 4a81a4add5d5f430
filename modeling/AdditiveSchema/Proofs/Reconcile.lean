import AdditiveSchema.Plan.Reconcile
import AdditiveSchema.Proofs.Catalog
import AdditiveSchema.Proofs.Diff
import AdditiveSchema.Proofs.Statement

/-!
# What a plan consists of

For a catalog, reconciliation has a plan if the listed tables can be found, the new tables can be
arranged and each of them has statements. The plan is then made of the arranged new tables, of
those missing items of existing tables that the dialect can create, and of the deferred foreign
keys.

## Main definitions

* `DeclaredSchema.resolved` : the declared tables with their schemas filled in.
* `Catalog.Lacks`, `Catalog.absent`, `Catalog.owed` : what a catalog lacks.
* `Reconcile.planOf` : the plan for arranged tables and deferred foreign keys.

## Main results

* `Reconcile.sift_eq_ok` : which items are kept and what the warnings say.
* `Reconcile.examineAll_eq_ok_iff` : what the comparison with a catalog finds.
* `Reconcile.reconcile_of_isReadable` : how a plan comes about.
* `reconcile_eq_ok_iff` : when there is a plan, and what it is.
-/

namespace AdditiveSchema

/-! ### What a catalog lacks -/

/-- The declared tables with their schemas filled in. -/
def DeclaredSchema.resolved (s : DeclaredSchema) (defaultSchema : String) : List Table :=
  s.tables.map (Table.resolve defaultSchema)

namespace Catalog

/-- The catalog lacks what the action would create. An existing table lacks the item; where there
is no table, it is lacking together with its foreign keys. -/
def Lacks (c : Catalog) (a : Action) : Prop :=
  match c.table? a.table with
  | some g => g.Lacks a
  | none => a.isChange = false

theorem lacks_iff_of_table? {c : Catalog} {a : Action} {g : Table}
    (h : c.table? a.table = some g) : c.Lacks a ↔ g.Lacks a := by
  rw [Lacks, h]

theorem lacks_iff_of_table?_eq_none {c : Catalog} {a : Action} (h : c.table? a.table = none) :
    c.Lacks a ↔ a.isChange = false := by
  rw [Lacks, h]

instance (c : Catalog) : DecidablePred c.Lacks := fun a =>
  match h : c.table? a.table with
  | some g => decidable_of_iff (g.Lacks a) (lacks_iff_of_table? h).symm
  | none => decidable_of_iff (a.isChange = false) (lacks_iff_of_table?_eq_none h).symm

/-- The tables that the catalog does not have. -/
def absent (c : Catalog) (tables : List Table) : List Table :=
  tables.filter fun t => (c.table? t.qualifiedName).isNone

/-- What the tables of the catalog lack of the declared tables, each item once and in order. -/
def owed (c : Catalog) (tables : List Table) : List Action :=
  (tables.flatMap Table.items).filter (c.Lacks ·)

theorem mem_owed_iff {c : Catalog} {tables : List Table} {a : Action} :
    a ∈ c.owed tables ↔ (∃ t ∈ tables, a ∈ t.items) ∧ c.Lacks a := by
  rw [owed, List.mem_filter, List.mem_flatMap, decide_eq_true_iff]

theorem isChange_of_mem_owed {c : Catalog} {tables : List Table} {a : Action}
    (h : a ∈ c.owed tables) : a.isChange = true := by
  obtain ⟨⟨t, -, ha⟩, -⟩ := mem_owed_iff.mp h
  exact Table.isChange_of_mem_items ha

/-- A change is lacking only where its table exists. -/
theorem exists_table?_of_lacks {c : Catalog} {a : Action} (ha : a.isChange = true)
    (h : c.Lacks a) : ∃ g, c.table? a.table = some g := by
  rw [← Option.isSome_iff_exists, Option.isSome_iff_ne_none]
  intro hnone
  rw [lacks_iff_of_table?_eq_none hnone, ha] at h
  cases h

/-- If the table of that name is listed, it can be found. -/
def IsReadable (c : Catalog) (name : QualifiedName) : Prop :=
  c.view.resolvedNames.contains name = true → (c.table? name).isSome = true

instance (c : Catalog) : DecidablePred c.IsReadable := fun name =>
  inferInstanceAs (Decidable (c.view.resolvedNames.contains name = true → _))

end Catalog

/-- The dialect has statements for the action. -/
def Action.isAccepted (d : Dialect) (a : Action) : Bool :=
  (a.statements d).isOk

/-- The table with those of its indices that the dialect can create. -/
def Table.accepted (d : Dialect) (t : Table) : Table :=
  { t with indices := t.indices.filter fun i => (d.createIndex t.qualifiedName i).isOk }

@[simp] theorem Table.qualifiedName_accepted (d : Dialect) (t : Table) :
    (t.accepted d).qualifiedName = t.qualifiedName := rfl

namespace Reconcile

/-! ### Sifting -/

section Sifting

variable {α β : Type} (table : α → QualifiedName) (render : α → Except GenerateError β)

/-- The warning about an item without statements. -/
def refusal? (a : α) : Option Warning :=
  match render a with
  | .ok _ => none
  | .error e => some (.unsupported (table a) e.message)

/-- **Which items are kept and what the warnings say.** Every item is kept or leads to one
warning. -/
theorem sift_eq_ok {as : List α} (h : ∀ a ∈ as, RefusesOnly (render a)) :
    sift table render as =
      .ok (as.filter fun a => (render a).isOk, as.filterMap (refusal? table render)) := by
  induction as with
  | nil => rfl
  | cons a as ih =>
    have ih := ih fun b hb => h b (List.mem_cons_of_mem a hb)
    rw [sift]
    cases hrender : render a with
    | ok b =>
      simp only [ih, List.filter_cons, List.filterMap_cons, refusal?, hrender]
      rfl
    | error e =>
      have he : e.isUnsupported = true := h a List.mem_cons_self e hrender
      simp only [ih, List.filter_cons, List.filterMap_cons, refusal?, hrender, he]
      rfl

end Sifting

/-- The warnings about the indices of a new table that the dialect cannot create. -/
def refusedIndices (d : Dialect) (t : Table) : List Warning :=
  t.indices.filterMap (refusal? (fun _ => t.qualifiedName) (d.createIndex t.qualifiedName))

/-- The warnings about changes that the dialect cannot carry out. -/
def refusedChanges (d : Dialect) (changes : List Action) : List Warning :=
  changes.filterMap (refusal? Action.table (Action.statements d))

/-! ### The comparison with a catalog -/

/-- What is remarked about one declared table. -/
def remarks (d : Dialect) (c : Catalog) (detectDrift : Bool) (t : Table) : List Warning :=
  match c.table? t.qualifiedName with
  | some g => if detectDrift then Diff.drift d (.ofTable g) t else []
  | none => refusedIndices d t

/-- What the comparison of declared tables with a catalog finds. -/
def findings (d : Dialect) (c : Catalog) (detectDrift : Bool) (tables : List Table) :
    Findings where
  newTables := (c.absent tables).map (Table.accepted d)
  changes := c.owed tables
  warnings := tables.flatMap (remarks d c detectDrift)

variable {d : Dialect} {c : Catalog} {detectDrift : Bool}

theorem findings_cons (t : Table) (tables : List Table) :
    findings d c detectDrift (t :: tables) =
      (findings d c detectDrift [t]).append (findings d c detectDrift tables) := by
  simp only [findings, Findings.append, Catalog.absent, Catalog.owed, ← List.map_append,
    ← List.filter_append, ← List.flatMap_append, List.singleton_append]

theorem Findings.append_assoc (f g h : Findings) :
    (f.append g).append h = f.append (g.append h) := by
  simp only [append, List.append_assoc]

theorem read_view {n : QualifiedName} {g : Table} (h : c.table? n = some g) :
    Diff.Existing.read c.view n = .ok (.ofTable g) := by
  have hrequire := Catalog.require_eq_ok_iff.mpr h
  simp only [Diff.Existing.read, Catalog.view, View.ofLookup, hrequire]
  rfl

theorem findings_of_table? {t g : Table} (h : c.table? t.qualifiedName = some g) :
    findings d c detectDrift [t] =
      { changes := Diff.missing (.ofTable g) t
        warnings := if detectDrift then Diff.drift d (.ofTable g) t else [] } := by
  have hchanges : c.owed [t] = Diff.missing (.ofTable g) t := by
    rw [Diff.missing_eq_filter, Catalog.owed, List.flatMap_singleton]
    refine List.filter_congr fun a ha => decide_eq_decide.mpr (Catalog.lacks_iff_of_table? ?_)
    rwa [Table.table_of_mem_items ha]
  have habsent : c.absent [t] = [] := by simp [Catalog.absent, h]
  rw [findings, hchanges, habsent, List.flatMap_singleton]
  simp only [remarks, h]
  rfl

theorem findings_of_table?_eq_none {t : Table} (h : c.table? t.qualifiedName = none) :
    findings d c detectDrift [t] =
      { newTables := [t.accepted d], warnings := refusedIndices d t } := by
  have hchanges : c.owed [t] = [] := by
    rw [Catalog.owed, List.flatMap_singleton, List.filter_eq_nil_iff]
    intro a ha
    have hnone : c.table? a.table = none := by rwa [Table.table_of_mem_items ha]
    rw [decide_eq_true_iff, Catalog.lacks_iff_of_table?_eq_none hnone,
      Table.isChange_of_mem_items ha]
    exact Bool.noConfusion
  have habsent : c.absent [t] = [t] := by simp [Catalog.absent, h]
  rw [findings, hchanges, habsent, List.flatMap_singleton]
  simp only [remarks, h]
  rfl

theorem examine_eq_ok_iff {t : Table}
    (ht : t.qualifiedName.resolve c.defaultSchema = t.qualifiedName) {f : Findings} :
    examine d c.view detectDrift t = .ok f ↔
      c.IsReadable t.qualifiedName ∧ f = findings d c detectDrift [t] := by
  rw [examine]
  cases htable : c.table? t.qualifiedName with
  | some g =>
    have hlisted := Catalog.contains_resolvedNames_of_table? ht htable
    rw [findings_of_table? htable]
    simp only [hlisted, if_true, read_view htable]
    simp only [Catalog.IsReadable, htable]
    constructor
    · intro h
      cases h
      exact ⟨fun _ => rfl, rfl⟩
    · rintro ⟨-, rfl⟩
      rfl
  | none =>
    rw [findings_of_table?_eq_none htable]
    cases hlisted : c.view.resolvedNames.contains t.qualifiedName with
    | true =>
      have hrequire : c.require t.qualifiedName = .error (.missing t.qualifiedName) := by
        rw [Catalog.require, htable, ht]
      simp only [if_true, Diff.Existing.read, Catalog.view, View.ofLookup, hrequire]
      constructor
      · intro h
        cases h
      · rintro ⟨hread, -⟩
        have := hread hlisted
        rw [htable] at this
        cases this
    | false =>
      simp only [Bool.false_eq_true, if_false,
        sift_eq_ok _ _ fun i _ => d.refusesOnly_createIndex t.qualifiedName i]
      constructor
      · intro h
        cases h
        exact ⟨fun h => (Bool.noConfusion (hlisted.symm.trans h)), rfl⟩
      · rintro ⟨-, rfl⟩
        rfl

theorem foldlM_examine_eq_ok_iff {tables : List Table}
    (htables : ∀ t ∈ tables, t.qualifiedName.resolve c.defaultSchema = t.qualifiedName)
    {f g : Findings} :
    tables.foldlM (fun found t => do
        let more ← examine d c.view detectDrift t
        return found.append more) f = .ok g ↔
      (∀ t ∈ tables, c.IsReadable t.qualifiedName) ∧
        g = f.append (findings d c detectDrift tables) := by
  induction tables generalizing f with
  | nil =>
    have happend : f.append (findings d c detectDrift []) = f := by
      simp [Findings.append, findings, Catalog.absent, Catalog.owed]
    rw [happend]
    exact ⟨fun h => ⟨by simp, by cases h; rfl⟩, fun h => by rw [h.2]; rfl⟩
  | cons t tables ih =>
    have ih {f : Findings} := ih (fun u hu => htables u (List.mem_cons_of_mem t hu)) (f := f)
    rw [List.foldlM_cons, Except.bind_eq_ok_iff, List.forall_mem_cons, findings_cons,
      ← Findings.append_assoc]
    constructor
    · rintro ⟨f', hf', hrest⟩
      obtain ⟨more, hmore, hf'⟩ := Except.bind_eq_ok_iff.mp hf'
      cases hf'
      obtain ⟨hread, rfl⟩ := (examine_eq_ok_iff (htables t List.mem_cons_self)).mp hmore
      obtain ⟨hreads, rfl⟩ := ih.mp hrest
      exact ⟨⟨hread, hreads⟩, rfl⟩
    · rintro ⟨⟨hread, hreads⟩, rfl⟩
      have hmore : examine d c.view detectDrift t = .ok _ :=
        (examine_eq_ok_iff (htables t List.mem_cons_self)).mpr ⟨hread, rfl⟩
      exact ⟨_, Except.bind_eq_ok_iff.mpr ⟨_, hmore, rfl⟩, ih.mpr ⟨hreads, rfl⟩⟩

/-- **What the comparison with a catalog finds.** -/
theorem examineAll_eq_ok_iff {s : DeclaredSchema} {f : Findings} :
    examineAll s c.view detectDrift = .ok f ↔
      (∀ t ∈ s.resolved c.defaultSchema, c.IsReadable t.qualifiedName) ∧
        f = findings s.dialect c detectDrift (s.resolved c.defaultSchema) := by
  have htables : ∀ t ∈ s.resolved c.defaultSchema,
      t.qualifiedName.resolve c.defaultSchema = t.qualifiedName := by
    intro t ht
    obtain ⟨u, -, rfl⟩ := List.mem_map.mp ht
    rw [Table.qualifiedName_resolve, QualifiedName.resolve_resolve_self]
  refine Iff.trans ?_ (foldlM_examine_eq_ok_iff (f := {}) htables)
  rw [DeclaredSchema.resolved, List.foldlM_map]
  rfl

end Reconcile

/-! ### Plans -/

namespace Deferral

/-- The action that adds the deferred foreign key. -/
def action (d : Deferral) : Action :=
  .addForeignKey d.table d.column d.foreignKey

/-- The warning about the deferred foreign key. -/
def warning (d : Deferral) : Warning :=
  .deferredForeignKey d.table d.column d.foreignKey

end Deferral

namespace Reconcile

variable (s : DeclaredSchema) (c : Catalog) (detectDrift : Bool)

/-- The changes of a plan: what the catalog lacks and the dialect can create, in order. -/
def changes : List Action :=
  (ChangeOrder.order (c.owed (s.resolved c.defaultSchema))).filter (Action.isAccepted s.dialect)

/-- The plan for arranged new tables and deferred foreign keys. -/
def planOf (created : List Table) (deferred : List Deferral) : Plan where
  actions := created.map .createTable ++ changes s c ++ deferred.map Deferral.action
  warnings := s.warnings ++
    (s.resolved c.defaultSchema).flatMap (remarks s.dialect c detectDrift) ++
    refusedChanges s.dialect (ChangeOrder.order (c.owed (s.resolved c.defaultSchema))) ++
    deferred.map Deferral.warning

/-- The new tables as they are handed to be arranged. -/
def newTables : List Table :=
  (c.absent (s.resolved c.defaultSchema)).map (Table.accepted s.dialect)

variable {s c}

theorem mem_changes_iff {a : Action} :
    a ∈ changes s c ↔ a ∈ c.owed (s.resolved c.defaultSchema) ∧
      a.isAccepted s.dialect = true := by
  rw [changes, List.mem_filter, (ChangeOrder.perm_order _).mem_iff]

theorem isChange_of_mem_changes {a : Action} (h : a ∈ changes s c) : a.isChange = true :=
  Catalog.isChange_of_mem_owed (mem_changes_iff.mp h).1

end Reconcile

open Reconcile

theorem Plan.isOk_statements (d : Dialect) (p : Plan) :
    (p.statements d).isOk = p.actions.all (Action.isAccepted d) := by
  rw [Plan.statements, Except.isOk_map, Except.isOk_mapM]
  rfl

namespace Reconcile

variable {s : DeclaredSchema} {c : Catalog} {created : List Table} {deferred : List Deferral}

/-- A foreign key is deferred only where it can be added to its table. -/
theorem isAccepted_action
    (horder : TableOrder.order (newTables s c) s.dialect.allowsForwardReferences =
      .ok (created, deferred)) {d : Deferral} (hd : d ∈ deferred) :
    d.action.isAccepted s.dialect = true := by
  cases hforward : s.dialect.allowsForwardReferences with
  | true =>
    rw [hforward] at horder
    rw [TableOrder.deferred_eq_nil_of_order horder] at hd
    cases hd
  | false => exact Action.isOk_statements_addForeignKey hforward d.table d.column d.foreignKey

/-- **Only new tables lack statements.** The other actions of a plan have some. -/
theorem exists_created_of_isAccepted_eq_false {detectDrift : Bool}
    (horder : TableOrder.order (newTables s c) s.dialect.allowsForwardReferences =
      .ok (created, deferred)) {a : Action}
    (ha : a ∈ (planOf s c detectDrift created deferred).actions)
    (hrefused : a.isAccepted s.dialect = false) : ∃ u ∈ created, a = .createTable u := by
  simp only [planOf, List.mem_append, List.mem_map] at ha
  rcases ha with (⟨u, hu, rfl⟩ | ha) | ⟨d, hd, rfl⟩
  · exact ⟨u, hu, rfl⟩
  · exact absurd (mem_changes_iff.mp ha).2 (Bool.eq_false_iff.mp hrefused)
  · exact absurd (isAccepted_action horder hd) (Bool.eq_false_iff.mp hrefused)

/-- The statements of a plan hinge on its new tables alone. -/
theorem isOk_statements_planOf (detectDrift : Bool)
    (horder : TableOrder.order (newTables s c) s.dialect.allowsForwardReferences =
      .ok (created, deferred)) :
    ((planOf s c detectDrift created deferred).statements s.dialect).isOk = true ↔
      ∀ t ∈ created, (s.dialect.createTable t).isOk = true := by
  rw [Plan.isOk_statements, List.all_eq_true]
  constructor
  · intro hall t ht
    exact hall _ (List.mem_append_left _ (List.mem_append_left _ (List.mem_map_of_mem ht)))
  · intro hcreated a ha
    by_contra hrefused
    obtain ⟨u, hu, rfl⟩ :=
      exists_created_of_isAccepted_eq_false horder ha (Bool.eq_false_iff.mpr hrefused)
    exact hrefused (hcreated u hu)

/-- Where the existing tables can be read, what remains is to arrange the new tables and to generate
the statements of the plan. -/
theorem reconcile_of_isReadable {detectDrift : Bool}
    (hread : ∀ t ∈ s.resolved c.defaultSchema, c.IsReadable t.qualifiedName) :
    reconcile c.view s detectDrift = (do
      let (created, deferred) ← (TableOrder.order (newTables s c)
        s.dialect.allowsForwardReferences).mapError .cyclicDependency
      let plan := planOf s c detectDrift created deferred
      let _ ← (plan.statements s.dialect).mapError .generate
      return plan) := by
  have hfound : examineAll s c.view detectDrift = .ok _ :=
    examineAll_eq_ok_iff.mpr ⟨hread, rfl⟩
  have hsift : sift Action.table (Action.statements s.dialect)
      (ChangeOrder.order (c.owed (s.resolved c.defaultSchema))) = .ok _ :=
    sift_eq_ok _ _ fun a ha => Action.refusesOnly_statements s.dialect (Catalog.isChange_of_mem_owed
        ((ChangeOrder.perm_order _).mem_iff.mp ha))
  rw [reconcile, hfound]
  change (TableOrder.order (newTables s c) _).mapError _ >>= _ = _
  congr 1
  funext ⟨created, deferred⟩
  change (sift Action.table (Action.statements s.dialect)
      (ChangeOrder.order (c.owed (s.resolved c.defaultSchema)))).mapError _ >>= _ = _
  rw [hsift]
  rfl

end Reconcile

/-- **When there is a plan, and what it is.** -/
theorem reconcile_eq_ok_iff {s : DeclaredSchema} {c : Catalog} {detectDrift : Bool} {p : Plan} :
    reconcile c.view s detectDrift = .ok p ↔
      (∀ t ∈ s.resolved c.defaultSchema, c.IsReadable t.qualifiedName) ∧
      ∃ created deferred,
        TableOrder.order (newTables s c) s.dialect.allowsForwardReferences =
          .ok (created, deferred) ∧
        (∀ t ∈ created, (s.dialect.createTable t).isOk = true) ∧
        p = planOf s c detectDrift created deferred := by
  constructor
  · intro h
    have hread : ∀ t ∈ s.resolved c.defaultSchema, c.IsReadable t.qualifiedName := by
      obtain ⟨found, hfound, -⟩ := Except.bind_eq_ok_iff.mp h
      exact (examineAll_eq_ok_iff.mp hfound).1
    rw [reconcile_of_isReadable hread] at h
    obtain ⟨⟨created, deferred⟩, horder, h⟩ := Except.bind_eq_ok_iff.mp h
    obtain ⟨statements, hstatements, h⟩ := Except.bind_eq_ok_iff.mp h
    rw [Except.mapError_eq_ok_iff] at horder hstatements
    cases h
    exact ⟨hread, created, deferred, horder, (isOk_statements_planOf detectDrift horder).mp
      (Except.isOk_iff.mpr ⟨statements, hstatements⟩), rfl⟩
  · rintro ⟨hread, created, deferred, horder, hcreated, rfl⟩
    obtain ⟨statements, hstatements⟩ :=
      Except.isOk_iff.mp ((isOk_statements_planOf detectDrift horder).mpr hcreated)
    rw [reconcile_of_isReadable hread]
    refine Except.bind_eq_ok_iff.mpr ⟨_, Except.mapError_eq_ok_iff.mpr horder, ?_⟩
    exact Except.bind_eq_ok_iff.mpr ⟨_, Except.mapError_eq_ok_iff.mpr hstatements, rfl⟩

/-- Whoever holds a plan can generate its statements. -/
theorem Reconcile.isOk_statements_of_reconcile {s : DeclaredSchema} {c : Catalog}
    {detectDrift : Bool} {p : Plan} (h : reconcile c.view s detectDrift = .ok p) :
    (p.statements s.dialect).isOk = true := by
  obtain ⟨-, created, deferred, horder, hcreated, rfl⟩ := reconcile_eq_ok_iff.mp h
  exact (isOk_statements_planOf detectDrift horder).mpr hcreated

end AdditiveSchema
