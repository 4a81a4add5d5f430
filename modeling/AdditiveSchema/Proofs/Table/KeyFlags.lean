import AdditiveSchema.Proofs.Table.NormalForm

/-!
# Flags of keys

Folding the keys of a table gives a flag to the first column that has the name of a key over one
column. So a column of the folded table is a primary key if it was one before, or if a constraint is
a primary key over it alone and no column of its name comes before it.

## Main definitions

* `Table.foldAt` : what folding one constraint does to the column at a place.
* `keyFlags` : which columns are primary keys, by their names, their flags and the constraints.

## Main results

* `Table.columns_foldKeys` : the columns of a table with folded keys.
* `Table.map_primaryKey_foldKeys` : which of them are primary keys.
-/

namespace AdditiveSchema

/-! ### The first place of a key -/

theorem mapIdx_eq_self {α : Type} (as : List α) : (as.mapIdx fun _ a => a) = as :=
  List.mapIdx_eq_iff.mpr fun i => by simp

/-- The first element of a key is the one at the first place of the key. -/
theorem modifyFirst_eq_mapIdx {α κ : Type} [BEq κ] [LawfulBEq κ] (key : α → κ) (k : κ) (f : α → α)
    (as : List α) :
    modifyFirst (key · == k) f as =
      as.mapIdx fun i a => if (as.map key).idxOf k = i then f a else a := by
  induction as with
  | nil => rfl
  | cons a as ih =>
    simp only [modifyFirst, List.mapIdx_cons, List.map_cons, List.idxOf_cons]
    split
    · rename_i hk
      simp [hk, mapIdx_eq_self]
    · rename_i hk
      simpa [Bool.not_eq_true _ ▸ hk] using ih

/-! ### Folding keys -/

namespace Table

/-- The place of the column that the constraint folds into, if it folds. -/
def foldPlace? (t : Table) (k : TableConstraint) : Option Nat :=
  (foldsInto? t.name t.columns k).map (t.columns.map (·.name)).idxOf

/-- The column at a place after one constraint is folded. -/
def foldAt (t : Table) (i : Nat) (c : Column) (k : TableConstraint) : Column :=
  if t.foldPlace? k = some i then keyFlag k.kind c else c

theorem foldInto_eq_mapIdx {t : Table} {columns : List Column}
    (h : columns.map (·.name) = t.columns.map (·.name)) (k : TableConstraint) :
    t.foldInto columns k = columns.mapIdx fun i c => t.foldAt i c k := by
  unfold foldInto foldAt foldPlace?
  cases foldsInto? t.name t.columns k with
  | none => exact (mapIdx_eq_self columns).symm
  | some column => simp only [modifyFirst_eq_mapIdx, h, Option.map_some, Option.some.injEq]

/-- **The columns of a table with folded keys.** Each place gathers the flags of the keys that fold
into it. -/
theorem columns_foldKeys (t : Table) :
    t.foldKeys.columns = t.columns.mapIdx fun i c => t.constraints.foldl (t.foldAt i) c := by
  have hall (ks : List TableConstraint) (columns : List Column)
      (h : columns.map (·.name) = t.columns.map (·.name)) :
      ks.foldl t.foldInto columns = columns.mapIdx fun i c => ks.foldl (t.foldAt i) c := by
    induction ks generalizing columns with
    | nil => exact (mapIdx_eq_self columns).symm
    | cons k ks ih =>
      have hnames := (map_foldInto name_keyFlag t columns k).trans h
      rw [List.foldl_cons, ih _ hnames, foldInto_eq_mapIdx h, List.mapIdx_mapIdx]
      rfl
  exact hall t.constraints t.columns rfl

/-! ### The flags of one column -/

/-- The constraint is of that kind and folds into the column at that place. -/
def foldsAt (t : Table) (kind : ConstraintKind) (i : Nat) (k : TableConstraint) : Bool :=
  k.kind = kind ∧ t.foldPlace? k = some i

theorem foldAt_eq (t : Table) (i : Nat) (c : Column) (k : TableConstraint) :
    t.foldAt i c k = { c with
      primaryKey := c.primaryKey || t.foldsAt .primaryKey i k
      notNull := c.notNull || t.foldsAt .primaryKey i k
      unique := c.unique || t.foldsAt .unique i k } := by
  unfold foldAt foldsAt
  split
  · rename_i hplace
    cases hkind : k.kind <;> simp [keyFlag, Column.asPrimaryKey, hplace]
  · rename_i hplace
    simp [hplace]

/-- The flags of a column are gathered kind by kind. -/
theorem foldl_foldAt (t : Table) (i : Nat) (ks : List TableConstraint) (c : Column) :
    ks.foldl (t.foldAt i) c = { c with
      primaryKey := c.primaryKey || ks.any (t.foldsAt .primaryKey i)
      notNull := c.notNull || ks.any (t.foldsAt .primaryKey i)
      unique := c.unique || ks.any (t.foldsAt .unique i) } := by
  induction ks generalizing c with
  | nil => simp
  | cons k ks ih => simp only [List.foldl_cons, ih, foldAt_eq, List.any_cons, Bool.or_assoc]

/-- A primary key folds into the column that it is over, if it is over one, and no column of its
name comes first. -/
theorem foldPlace?_eq_some_iff {t : Table} {k : TableConstraint} {i : Nat} {c : Column}
    (hkind : k.kind = .primaryKey) (hc : t.columns[i]? = some c) :
    t.foldPlace? k = some i ↔
      k.columns = [c.name] ∧ (t.columns.map (·.name)).idxOf c.name = i := by
  have hname : (t.columns.map (·.name))[i]? = some c.name := by
    rw [List.getElem?_map, hc, Option.map_some]
  rw [foldPlace?, Option.map_eq_some_iff]
  constructor
  · rintro ⟨column, hfold, hplace⟩
    obtain ⟨hcolumns, hcolumn, -⟩ := foldsInto?_eq_some_iff.mp hfold
    have hfirst : (t.columns.map (·.name))[i]? = some column := by
      rw [← hplace, List.getElem?_eq_getElem (List.idxOf_lt_length_of_mem hcolumn),
        List.getElem_idxOf]
    obtain rfl : column = c.name := Option.some.inj (hfirst.symm.trans hname)
    exact ⟨hcolumns, hplace⟩
  · rintro ⟨hcolumns, hplace⟩
    exact ⟨c.name, foldsInto?_eq_some_iff.mpr
      ⟨hcolumns, List.mem_of_getElem? hname, Or.inl hkind⟩, hplace⟩

end Table

/-- Which columns are primary keys, by their names and flags and by the constraints of their table:
a column with the flag, and the first one of its name that is a primary key alone. -/
def keyFlags (columns : List (String × Bool)) (constraints : List TableConstraint) : List Bool :=
  columns.mapIdx fun i (name, flag) =>
    flag || (constraints.any fun k => k.kind == .primaryKey && k.columns == [name]) &&
      (columns.map Prod.fst).idxOf name == i

/-- **Which columns of a table with folded keys are primary keys.** -/
theorem Table.map_primaryKey_foldKeys (t : Table) :
    t.foldKeys.columns.map (·.primaryKey) =
      keyFlags (t.columns.map fun c => (c.name, c.primaryKey)) t.constraints := by
  refine List.ext_getElem? fun i => ?_
  simp only [columns_foldKeys, keyFlags, List.getElem?_map, List.getElem?_mapIdx, List.map_map,
    Option.map_map]
  cases hc : t.columns[i]? with
  | none => rfl
  | some c =>
    simp only [Option.map_some, Function.comp_apply, foldl_foldAt, Option.some.injEq]
    have hkey (k : TableConstraint) : t.foldsAt .primaryKey i k =
        ((k.kind == .primaryKey && k.columns == [c.name]) &&
          (t.columns.map (·.name)).idxOf c.name == i) := by
      rw [Bool.eq_iff_iff, foldsAt]
      simp only [Bool.and_eq_true, decide_eq_true_iff, beq_iff_eq, and_assoc]
      exact and_congr_right fun hkind => foldPlace?_eq_some_iff hkind hc
    rw [funext hkey, ← List.and_any_distrib_right]
    rfl

end AdditiveSchema
