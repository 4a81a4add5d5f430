import AdditiveSchema.Proofs.ForeignKeys
import Mathlib.Logic.Relation

/-!
# Cyclic dependencies

New tables that reference one another are sorted in rounds. As long as references run in a circle,
a round defers one more of its keys, and as each key is deferred once, the rounds come to an end.
There is no plan for want of an order just if there is a circle of new tables each of which needs
the next one by a key that may not be null; other circles are always broken.

## Main definitions

* `TableOrder.Round` : one round of sorting, which defers one key.
* `TableOrder.Terminates` : the rounds end, and what the sort gives then.

## Main results

* `TableOrder.terminates` : the rounds always end.
* `Reconcile.exists_order_newTables_error_iff` : new tables without an order contain a circle.
* `reconcile_cyclicDependency_iff` : when a cyclic dependency is reported.
-/

namespace AdditiveSchema

open Relation (ReflTransGen)

namespace TableOrder

variable {tables : List Table}

/-! ### The rounds of sorting -/

/-- The breakable keys that are not deferred yet. -/
def openKeys (tables : List Table) (deferred : List Deferral) : List Deferral :=
  (tables.flatMap Table.breakable).filter fun d => !Deferral.covers deferred d.table d.column

/-- One round: the tables cannot be sorted, and of the keys inside the circle that are not deferred
yet the least is deferred. -/
inductive Round (tables : List Table) (deferred : List Deferral) : List Deferral → Prop
  | defer {members : List QualifiedName} {d : Deferral}
      (hsort : (graph tables deferred).sort = .error members)
      (hleast : Deferral.least? ((openKeys tables deferred).filter (isWithin members)) = some d) :
      Round tables deferred (deferred ++ [d])

theorem openKeys_nil (tables : List Table) :
    openKeys tables [] = tables.flatMap Table.breakable :=
  List.filter_eq_self.mpr fun _ _ => rfl

theorem openKeys_concat (tables : List Table) (deferred : List Deferral) (d : Deferral) :
    openKeys tables (deferred ++ [d]) = d.without (openKeys tables deferred) := by
  rw [openKeys, openKeys, Deferral.without, List.filter_filter]
  refine List.filter_congr fun e _ => ?_
  rw [Deferral.covers_append, Bool.not_or, Bool.and_comm]
  simp [Deferral.covers, Deferral.sameColumn, BEq.comm (a := d.table), BEq.comm (a := d.column)]

/-- A round leaves fewer keys to be deferred. -/
theorem Round.length_openKeys_lt {deferred next : List Deferral} (h : Round tables deferred next) :
    next.length = deferred.length + 1 ∧
      (openKeys tables next).length < (openKeys tables deferred).length := by
  obtain ⟨-, hleast⟩ := h
  rw [openKeys_concat]
  exact ⟨List.length_append,
    Deferral.length_without_lt (List.mem_filter.mp (Deferral.least?_mem hleast)).1⟩

/-- Any number of rounds defers no more keys than there are. -/
theorem length_add_length_openKeys_le {deferred : List Deferral}
    (h : ReflTransGen (Round tables) [] deferred) :
    deferred.length + (openKeys tables deferred).length ≤
      (tables.flatMap Table.breakable).length := by
  induction h with
  | refl =>
    rw [openKeys_nil]
    exact Nat.le_of_eq (Nat.zero_add _)
  | tail _ hround ih =>
    obtain ⟨hlength, hlt⟩ := hround.length_openKeys_lt
    omega

/-- Sorting goes on round by round, and the last deferrals give the result. -/
theorem exists_rounds {deferred breakable : List Deferral}
    (hbreakable : breakable = openKeys tables deferred) :
    ∃ last, ReflTransGen (Round tables) deferred last ∧ (∀ next, ¬ Round tables last next) ∧
      breakCycles tables deferred breakable = (graph tables last).sort.map (·, last) := by
  fun_induction breakCycles tables deferred breakable with
  | case1 deferred breakable sorted hsort =>
    refine ⟨deferred, .refl, ?_, by rw [hsort]; rfl⟩
    rintro _ ⟨hsort', -⟩
    cases hsort.symm.trans hsort'
  | case2 deferred breakable members hsort hnone =>
    subst hbreakable
    refine ⟨deferred, .refl, ?_, by rw [hsort]; rfl⟩
    rintro _ ⟨hsort', hleast⟩
    cases hsort.symm.trans hsort'
    cases hnone.symm.trans hleast
  | case3 deferred breakable members hsort d hleast _ ih =>
    subst hbreakable
    obtain ⟨last, hrounds, hlast, hresult⟩ := ih (openKeys_concat tables deferred d).symm
    exact ⟨last, hrounds.head (.defer hsort hleast), hlast, hresult⟩

/-- The rounds end, and what the sort gives in the end. -/
structure Terminates (tables : List Table) : Prop where
  /-- There are no more rounds than there are keys that can be deferred. -/
  bounded : ∀ deferred, ReflTransGen (Round tables) [] deferred →
    deferred.length ≤ (tables.flatMap Table.breakable).length
  /-- After the last round, the names are sorted by the keys that are not deferred, or else no key
  is left to defer. -/
  result : ∃ last, ReflTransGen (Round tables) [] last ∧ (∀ next, ¬ Round tables last next) ∧
    breakCycles tables [] (tables.flatMap Table.breakable) =
      (graph tables last).sort.map (·, last)

/-- **The rounds always end.** -/
theorem terminates (tables : List Table) : Terminates tables where
  bounded _ h := (Nat.le_add_right _ _).trans (length_add_length_openKeys_le h)
  result := exists_rounds (openKeys_nil tables).symm

/-! ### Tables without an order -/

theorem order_error {forward : Bool} {members : List QualifiedName}
    (h : order tables forward = .error members) :
    breakCycles tables [] (tables.flatMap Table.breakable) = .error members := by
  simp only [order] at h
  cases hbreak : breakCycles tables [] (tables.flatMap Table.breakable) with
  | error members' =>
    rw [hbreak] at h
    cases h
    rfl
  | ok r =>
    rw [hbreak] at h
    cases forward <;> cases h

/-- Tables have no order just if some of them need one another. -/
theorem exists_order_error_iff (hnames : (tables.map Table.qualifiedName).Nodup)
    (hcolumns : ∀ t ∈ tables, (t.columns.map (·.name)).Nodup) {forward : Bool} :
    (∃ members, order tables forward = .error members) ↔
      ∃ stuck ⊆ tables, IsStuck Table.Needs stuck := by
  constructor
  · rintro ⟨members, h⟩
    exact breakCycles_error hnames
      (fun t ht d hd _ => List.mem_flatMap.mpr ⟨t, ht, hd⟩) (order_error h)
  · rintro ⟨stuck, hstuck, hneeds⟩
    cases h : order tables forward with
    | error members => exact ⟨members, rfl⟩
    | ok r =>
      obtain ⟨rank, hrank⟩ := exists_isRanked_of_order hnames hcolumns h
      exact absurd hneeds (hrank.not_isStuck hnames hstuck)

end TableOrder

namespace Reconcile

variable {s : DeclaredSchema} {c : Catalog} {detectDrift : Bool}

/-- **New tables have no order just if there is a circle in them.** Whether a table needs another
one has nothing to do with the indices that the dialect refuses. -/
theorem exists_order_newTables_error_iff
    (hnames : ((s.resolved c.defaultSchema).map Table.qualifiedName).Nodup)
    (hcolumns : ∀ t ∈ s.tables, (t.columns.map (·.name)).Nodup) {forward : Bool} :
    (∃ members, TableOrder.order (newTables s c) forward = .error members) ↔
      ∃ circle ⊆ c.absent (s.resolved c.defaultSchema), IsCircle Table.Needs circle := by
  rw [TableOrder.exists_order_error_iff (nodup_newTables hnames) (nodup_columns_newTables hcolumns),
    exists_isCircle_iff, newTables]
  refine exists_isStuck_map_iff (fun t ht u hu heq => ?_) fun t u => Iff.rfl
  have hname : (t.accepted s.dialect).qualifiedName = (u.accepted s.dialect).qualifiedName :=
    congrArg Table.qualifiedName heq
  exact List.inj_on_of_nodup_map hnames (List.mem_of_mem_filter ht) (List.mem_of_mem_filter hu)
    hname

/-- If the existing tables can be read, a cyclic dependency means that the new tables have no
order. -/
theorem reconcile_eq_cyclicDependency_iff
    (hread : ∀ t ∈ s.resolved c.defaultSchema, c.IsReadable t.qualifiedName)
    {members : List QualifiedName} :
    reconcile c.view s detectDrift = .error (.cyclicDependency members) ↔
      TableOrder.order (newTables s c) s.dialect.allowsForwardReferences = .error members := by
  rw [reconcile_of_isReadable hread]
  constructor
  · intro h
    rcases Except.bind_eq_error_iff.mp h with herror | ⟨⟨created, deferred⟩, -, h⟩
    · obtain ⟨members', horder, heq⟩ := Except.mapError_eq_error_iff.mp herror
      cases heq
      exact horder
    -- what comes after the order fails for other reasons
    rcases Except.bind_eq_error_iff.mp h with herror | ⟨statements, -, h⟩
    · obtain ⟨_, -, heq⟩ := Except.mapError_eq_error_iff.mp herror
      cases heq
    · cases h
  · intro horder
    exact Except.bind_eq_error_iff.mpr
      (Or.inl (Except.mapError_eq_error_iff.mpr ⟨members, horder, rfl⟩))

end Reconcile

open Reconcile

/-- **When a cyclic dependency is reported.** Let the declared tables have different names and the
columns of each declared table, too. A cyclic dependency is reported if and only if, of the declared
tables that do not exist, at least two form a circle in which each table has a foreign key to the
next one that may not be null. The rounds in which the new tables are sorted always end. -/
theorem reconcile_cyclicDependency_iff {s : DeclaredSchema} {defaultSchema : String}
    {tables : List Table} {got : Catalog} (hgot : got = Catalog.ofTables defaultSchema tables)
    (hnames : ((s.resolved defaultSchema).map Table.qualifiedName).Nodup)
    (hcolumns : ∀ t ∈ s.tables, (t.columns.map (·.name)).Nodup) (detectDrift : Bool) :
    ((∃ members, reconcile got.view s detectDrift = .error (.cyclicDependency members)) ↔
      ∃ circle ⊆ got.absent (s.resolved defaultSchema), IsCircle Table.Needs circle) ∧
    TableOrder.Terminates (newTables s got) := by
  have hschema : got.defaultSchema = defaultSchema := by
    rw [hgot, Catalog.defaultSchema_ofTables]
  have hread (t : Table) : got.IsReadable t.qualifiedName := by
    rw [hgot]
    exact Catalog.isSome_table?_ofTables
  subst hschema
  refine ⟨?_, TableOrder.terminates _⟩
  rw [← exists_order_newTables_error_iff hnames hcolumns]
  exact exists_congr fun members => reconcile_eq_cyclicDependency_iff fun t _ => hread t

/-- Where every member of staff must belong to a store and every store must have a manager, neither
table can be created first. -/
theorem reconcile_cyclicDependency_iff_staffAndStore :
    let s : DeclaredSchema := { staffAndStore with
      tables := staffAndStore.tables.map fun t =>
        { t with columns := t.columns.map fun c => { c with notNull := true } } }
    let got := Catalog.ofTables "public" []
    (∃ members, reconcile got.view s false = .error (.cyclicDependency members)) ∧
      TableOrder.Terminates (newTables s got) := by
  intro s got
  have hgot : got = Catalog.ofTables "public" [] := rfl
  obtain ⟨hcyclic, hterminates⟩ :=
    reconcile_cyclicDependency_iff (s := s) hgot (by decide) (by decide) false
  let staff : Table := (s.resolved "public")[0]
  let store : Table := (s.resolved "public")[1]
  have hstaff : staff.Needs store := ⟨staff.columns[1], by decide, rfl, _, rfl, rfl⟩
  have hstore : store.Needs staff := ⟨store.columns[1], by decide, rfl, _, rfl, rfl⟩
  exact ⟨hcyclic.mpr ⟨[staff, store], by decide, isCircle_pair (by decide) hstaff hstore⟩,
    hterminates⟩

end AdditiveSchema
