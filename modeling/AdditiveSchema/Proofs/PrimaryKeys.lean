import AdditiveSchema.Except
import AdditiveSchema.Proofs.DeclaredItems

/-!
# Primary keys of declared tables

A table has one primary key: a flag of the column, if it is over one, or else a constraint. The
directives of columns and the one of the table declare primary keys, and nothing sees to it that
only one is declared. Every column with the modifier has the flag, a key over one column becomes the
flag of it, and keys over several columns stay constraints. So a table has as many primary keys as
its definition declares, where keys over the same one column count once.

## Main definitions

* `Table.primaryKeys`, `TableDef.primaryKeysIn` : the primary keys of a table and those that a
  definition declares.
* `Table.KeyedAtMostOnce` : the table has at most one primary key.

## Main results

* `Table.keyedAtMostOnce_iff` : flags and constraints are counted together.
* `TableDef.Declares.primaryKeys` : the table of one definition.
* `DeclaredSchema.build_keyedAtMostOnce_iff` : the tables of a declared schema.
-/

namespace AdditiveSchema

namespace Table

/-- The primary keys of the table: its columns with the flag, then its constraints. -/
def primaryKeys (t : Table) : List (List String) :=
  (t.columns.filter (·.primaryKey)).map (fun c => [c.name]) ++
    (t.constraints.filter (·.kind == .primaryKey)).map (·.columns)

/-- Of flags and constraints, the table has at most one primary key, and a column has the flag only
if the key is over it alone. -/
structure KeyedAtMostOnce (t : Table) : Prop where
  count_le_one : (t.columns.filter (·.primaryKey)).length +
    (t.constraints.filter (·.kind == .primaryKey)).length ≤ 1
  ofFlag : ∀ c ∈ t.columns, c.primaryKey = true → t.primaryKeys = [[c.name]]

theorem length_primaryKeys (t : Table) :
    t.primaryKeys.length = (t.columns.filter (·.primaryKey)).length +
      (t.constraints.filter (·.kind == .primaryKey)).length := by
  rw [primaryKeys, List.length_append, List.length_map, List.length_map]

/-- **Flags and constraints are counted together.** A flag that is the only one is right. -/
theorem keyedAtMostOnce_iff {t : Table} : t.KeyedAtMostOnce ↔ t.primaryKeys.length ≤ 1 := by
  rw [length_primaryKeys]
  refine ⟨fun h => h.count_le_one, fun h => ⟨h, fun c hc hflag => ?_⟩⟩
  have hmem : [c.name] ∈ t.primaryKeys :=
    List.mem_append_left _ (List.mem_map.mpr ⟨c, List.mem_filter.mpr ⟨hc, hflag⟩, rfl⟩)
  rw [← length_primaryKeys] at h
  obtain ⟨key, hkey⟩ :=
    List.length_eq_one_iff.mp (Nat.le_antisymm h (List.length_pos_of_mem hmem))
  rw [hkey, List.mem_singleton] at hmem
  rw [hkey, hmem]

/-- The columns with the flag, read off the names and the flags of all. -/
theorem map_name_filter_primaryKey (columns : List Column) :
    (columns.filter (·.primaryKey)).map (fun c => [c.name]) =
      (((columns.map (·.name)).zip (columns.map (·.primaryKey))).filter Prod.snd).map
        fun x => [x.1] := by
  rw [List.zip_map', List.filter_map, List.map_map]
  rfl

end Table

namespace TableDef

variable {declared : TableDef} {d : Dialect} {t : Table}

/-- The primary keys that the definition declares: the columns that are one by their own directive
or by a key over them alone, then the keys over several columns. -/
def primaryKeysIn (declared : TableDef) (d : Dialect) : List (List String) :=
  (((declared.columnNamesIn d).zip (declared.keyFlagsIn d)).filter Prod.snd).map (fun x => [x.1]) ++
    ((declared.constraintsIn d).filter fun k =>
      k.kind == .primaryKey && k.columns.length != 1).map (·.columns)

/-- Primary keys stay constraints if they are not over one column. -/
theorem filter_standingConstraintsIn :
    (declared.standingConstraintsIn d).filter (·.kind == .primaryKey) =
      (declared.constraintsIn d).filter fun k =>
        k.kind == .primaryKey && k.columns.length != 1 := by
  rw [standingConstraintsIn, List.filter_filter]
  refine List.filter_congr fun k _ => ?_
  rw [Bool.eq_iff_iff, Bool.and_eq_true, Bool.and_eq_true, beq_iff_eq, decide_eq_true_iff,
    bne_iff_ne, ne_eq, List.length_eq_one_iff]
  refine and_congr_right fun hkind => not_congr ?_
  constructor
  · rintro ⟨column, hcolumns, -⟩
    exact ⟨column, hcolumns⟩
  · rintro ⟨column, hcolumns⟩
    exact ⟨column, hcolumns, Or.inl hkind⟩

/-- **The primary keys of one table** are those that its definition declares. -/
theorem Declares.primaryKeys (h : declared.Declares d t) :
    t.primaryKeys = declared.primaryKeysIn d := by
  rw [Table.primaryKeys, Table.map_name_filter_primaryKey, h.columns, h.keyFlags, h.constraints,
    filter_standingConstraintsIn, primaryKeysIn]

end TableDef

/-- **The primary keys of declared tables.** The table of each definition has the primary keys that
the definition declares, whatever the mix of directives, and so it has at most one just if the
definition declares at most one: nothing sees to it. -/
theorem DeclaredSchema.build_keyedAtMostOnce_iff {d : Dialect} {policy : ModifierPolicy}
    {definitions : List TableDef} {s : DeclaredSchema} (h : build d policy definitions = .ok s) :
    List.Forall₂ (fun declared t => t.primaryKeys = declared.primaryKeysIn d ∧
        (t.KeyedAtMostOnce ↔ (declared.primaryKeysIn d).length ≤ 1))
      (kept d definitions) s.tables := by
  refine (forall₂_declares_of_build h).imp fun declared t hdeclares => ?_
  rw [Table.keyedAtMostOnce_iff, hdeclares.primaryKeys]
  exact ⟨rfl, Iff.rfl⟩

/-- A film whose column and whose table declare the same key. -/
def twiceKeyedFilm : TableDef where
  name := "film"
  directive := "primarykey=\x7b. cols=film_id\x7d"
  columns := [{ field := "film_id", kind := .number, directive := "primarykey" }]

/-- The two keys of films are one. -/
theorem DeclaredSchema.build_keyedAtMostOnce_iff_film :
    ∃ s film, build .postgres .warn [twiceKeyedFilm] = .ok s ∧ s.tables = [film] ∧
      film.primaryKeys = [["film_id"]] ∧ film.KeyedAtMostOnce := by
  obtain ⟨s, hbuild, hlength⟩ : ∃ s, build .postgres .warn [twiceKeyedFilm] = .ok s ∧
      s.tables.length = 1 := by
    decide +kernel
  obtain ⟨film, htables⟩ := List.length_eq_one_iff.mp hlength
  have hkept : kept .postgres [twiceKeyedFilm] = [twiceKeyedFilm] := by decide
  have hkeys : twiceKeyedFilm.primaryKeysIn .postgres = [["film_id"]] := by decide +kernel
  have hall := build_keyedAtMostOnce_iff hbuild
  rw [hkept, htables] at hall
  obtain ⟨⟨hfilm, honce⟩, -⟩ := List.forall₂_cons.mp hall
  rw [hkeys] at hfilm honce
  exact ⟨s, film, hbuild, htables, hfilm, honce.mpr (by decide)⟩

/-- Two columns of the table of actors in films, each a primary key. -/
def twiceKeyedFilmActor : TableDef where
  name := "film_actor"
  columns := [
    { field := "film_id", kind := .number, directive := "primarykey" },
    { field := "actor_id", kind := .number, directive := "primarykey" }]

/-- Nothing keeps the two columns from being two primary keys of one table. -/
theorem DeclaredSchema.build_keysTwice_filmActor :
    ∃ s t, build .postgres .warn [twiceKeyedFilmActor] = .ok s ∧ s.tables = [t] ∧
      t.primaryKeys = [["film_id"], ["actor_id"]] ∧ ¬t.KeyedAtMostOnce := by
  obtain ⟨s, hbuild, hkeys⟩ : ∃ s, build .postgres .warn [twiceKeyedFilmActor] = .ok s ∧
      s.tables.map (·.primaryKeys) = [[["film_id"], ["actor_id"]]] := by
    decide +kernel
  obtain ⟨t, htables, ht⟩ := List.map_eq_singleton_iff.mp hkeys
  refine ⟨s, t, hbuild, htables, ht, ?_⟩
  rw [Table.keyedAtMostOnce_iff, ht]
  decide

end AdditiveSchema
