import AdditiveSchema.Proofs.Table.KeyFlags

/-!
# Folding keys

Folding takes the keys over one column out of a table whose only trace, in some databases, is a flag
of that column. It takes out no other constraint and changes nothing but these flags, so it has
nothing left to do the second time, and it does not matter whether schemas are filled in before or
afterwards. A declared table is folded when it is declared and filled in when it is compared. A
table of a catalog is filled in first. Both come out the same.

## Main definitions

* `Table.Folds` : the constraints that are taken out.
* `Table.GainsKey` : the places of the columns that get a flag.
* `Table.IsFoldOf` : a table with its keys folded, said constraint by constraint and column by
  column.

## Main results

* `Table.isFoldOf_foldKeys` : what folding does to a table.
* `Table.foldKeys_resolve` : folding and filling in schemas.
-/

namespace AdditiveSchema

namespace Table

/-- The constraint turns into a flag: it is over one column, which the table has, and it is a
primary key, or a unique key whose name is empty, that of the column, or made of the names of table
and column. -/
def Folds (t : Table) (k : TableConstraint) : Prop :=
  ∃ column, k.columns = [column] ∧ column ∈ t.columns.map (·.name) ∧
    (k.kind = .primaryKey ∨ k.kind = .unique ∧
      (k.name = "" ∨ k.name = column ∨ k.name = t.name ++ "_" ++ column ++ "_key"))

theorem folds_iff {t : Table} {k : TableConstraint} :
    t.Folds k ↔ ∃ column, foldsInto? t.name t.columns k = some column :=
  exists_congr fun _ => foldsInto?_eq_some_iff.symm

instance (t : Table) : DecidablePred t.Folds := fun _ =>
  decidable_of_iff _ (Option.isSome_iff_exists.trans folds_iff.symm)

/-- A constraint of that kind turns into a flag of the column at that place, the first one that has
the name of the column under the constraint. -/
def GainsKey (t : Table) (kind : ConstraintKind) (i : Nat) : Prop :=
  ∃ k ∈ t.constraints, t.Folds k ∧ k.kind = kind ∧
    ∃ column ∈ k.columns, (t.columns.map (·.name)).idxOf column = i

instance (t : Table) (kind : ConstraintKind) (i : Nat) : Decidable (t.GainsKey kind i) :=
  inferInstanceAs (Decidable (∃ k ∈ t.constraints, _))

/-- The column at that place with the flags that it gets. A primary key may not be null either. -/
def withFlags (t : Table) (i : Nat) (c : Column) : Column :=
  { c with
    primaryKey := c.primaryKey || t.GainsKey .primaryKey i
    notNull := c.notNull || t.GainsKey .primaryKey i
    unique := c.unique || t.GainsKey .unique i }

/-- The table is the other one with its keys folded: the constraints that turn into flags are gone,
the columns have these flags, and nothing else is changed. -/
structure IsFoldOf (u t : Table) : Prop where
  constraints : u.constraints = t.constraints.filter fun k => ¬t.Folds k
  columns : u.columns = t.columns.mapIdx t.withFlags
  rest : u = { t with columns := u.columns, constraints := u.constraints }

/-! ### What folding does -/

theorem any_foldsAt (t : Table) (kind : ConstraintKind) (i : Nat) :
    t.constraints.any (t.foldsAt kind i) = decide (t.GainsKey kind i) := by
  rw [Bool.eq_iff_iff, List.any_eq_true, decide_eq_true_iff]
  refine exists_congr fun k => and_congr_right fun _ => ?_
  rw [foldsAt, decide_eq_true_iff, foldPlace?, Option.map_eq_some_iff, folds_iff]
  constructor
  · rintro ⟨hkind, column, hfolds, hplace⟩
    have hcolumns := (foldsInto?_eq_some_iff.mp hfolds).1
    exact ⟨⟨column, hfolds⟩, hkind, column, by simp [hcolumns], hplace⟩
  · rintro ⟨⟨column, hfolds⟩, hkind, column', hcolumn', hplace⟩
    rw [(foldsInto?_eq_some_iff.mp hfolds).1, List.mem_singleton] at hcolumn'
    exact ⟨hkind, column, hfolds, hcolumn' ▸ hplace⟩

/-- **What folding does to a table.** -/
theorem isFoldOf_foldKeys (t : Table) : t.foldKeys.IsFoldOf t where
  constraints := List.filter_congr fun k _ => by
    rw [Bool.eq_iff_iff, decide_eq_true_iff, folds_iff, ← Option.isSome_iff_exists]
    simp
  columns := by
    rw [columns_foldKeys]
    congr 1
    funext i c
    rw [foldl_foldAt, any_foldsAt, any_foldsAt]
    rfl
  rest := rfl

/-- The key over the number of the film and the unnamed one over its title are folded, that over
both columns and the one with a name of its own are not. -/
example :
    let film : Table := {
      name := "film"
      columns := [{ name := "film_id" }, { name := "title" }]
      constraints := [.primaryKey "film_pkey" ["film_id"], .unique "" ["title"],
        .unique "film_key" ["film_id", "title"], .unique "film_title_uq" ["title"]] }
    film.foldKeys.constraints.map (·.name) = ["film_key", "film_title_uq"] ∧
      film.foldKeys.columns.map (fun c => (c.primaryKey, c.notNull, c.unique)) =
        [(true, true, false), (false, false, true)] := by
  decide

/-! ### Filling in schemas -/

/-- A constraint folds, whether schemas are filled in or not. -/
theorem folds_resolve_iff {d : String} {t : Table} {k : TableConstraint} :
    (t.resolve d).Folds k ↔ t.Folds k := by
  rw [Folds, Folds, map_name_columns_resolve, name_resolve]

theorem gainsKey_resolve_iff {d : String} {t : Table} {kind : ConstraintKind} {i : Nat} :
    (t.resolve d).GainsKey kind i ↔ t.GainsKey kind i := by
  simp only [GainsKey, folds_resolve_iff, map_name_columns_resolve]
  rfl

/-- Filling in the schema of a foreign key has nothing to do with flags. -/
theorem withFlags_resolveReference (d schema : String) (t : Table) (i : Nat) (c : Column) :
    (t.resolve d).withFlags i (resolveReference schema c) =
      resolveReference schema (t.withFlags i c) := by
  simp only [withFlags, gainsKey_resolve_iff, resolveReference]

/-- **Keys may be folded before or after schemas are filled in.** -/
theorem foldKeys_resolve (d : String) (t : Table) :
    (t.resolve d).foldKeys = t.foldKeys.resolve d := by
  have hfolded := (t.resolve d).isFoldOf_foldKeys
  have hconstraints : (t.resolve d).foldKeys.constraints = t.foldKeys.constraints := by
    rw [hfolded.constraints, t.isFoldOf_foldKeys.constraints]
    simp only [folds_resolve_iff]
    rfl
  have hcolumns : (t.resolve d).foldKeys.columns = (t.foldKeys.resolve d).columns := by
    rw [hfolded.columns]
    simp only [resolve]
    ext1 i
    rw [t.isFoldOf_foldKeys.columns, List.getElem?_mapIdx, List.getElem?_map, List.getElem?_map,
      List.getElem?_mapIdx, Option.map_map, Option.map_map]
    congr 1
    funext c
    exact withFlags_resolveReference d _ t i c
  rw [hfolded.rest, hconstraints, hcolumns]
  rfl

end Table

end AdditiveSchema
