import AdditiveSchema.Except
import AdditiveSchema.Proofs.DeclaredItems

/-!
# Columns that a declared table names

The keys of a declared table are over columns that it has. So are the keys of its indices, as far as
these are columns: the uses that stand on a column belong to it, and the columns of an index of the
table are looked up. Two texts are never looked up. The columns that an index carries beside its
keys may be any names, and an expression may be empty, which turns the key into a column without a
name. So a table names only its own columns just if its definition does so in these two places.

## Main definitions

* `Table.NamesOwnColumns` : the keys, the keys of the indices and the columns that these carry are
  columns of the table.
* `TableDef.NamesOwnColumnsIn` : what a definition has to see to by itself.

## Main results

* `TableDef.Declares.namesOwnColumns_iff` : the table of one definition.
* `DeclaredSchema.build_namesOwnColumns_iff` : the tables of a declared schema.
-/

namespace AdditiveSchema

/-- The table names only columns of its own: in its keys, as keys of its indices and as columns that
its indices carry. -/
structure Table.NamesOwnColumns (t : Table) : Prop where
  constraints : t.ConstrainsOwnColumns
  keys : ∀ i ∈ t.indices, ∀ name, .column name ∈ i.keys → name ∈ t.columns.map (·.name)
  carried : ∀ i ∈ t.indices, ∀ name ∈ i.carried, name ∈ t.columns.map (·.name)

namespace TableDef

variable {declared : TableDef} {d : Dialect} {t : Table}

/-- What nothing looks up when the definition is read: no expression of an index is empty, and the
columns that indices carry are columns of the table. -/
structure NamesOwnColumnsIn (declared : TableDef) (d : Dialect) : Prop where
  /-- A column without a name would do for an empty expression. -/
  exprs : ∀ u ∈ declared.usesIn d, u.expr = some "" → "" ∈ declared.columnNamesIn d
  carried : ∀ i ∈ declared.tableIndicesIn d, ∀ name ∈ i.carried, name ∈ declared.columnNamesIn d

/-- A key that is a column is one that a use stands on, or it comes from an empty expression. -/
theorem mem_columnNamesIn_or_of_mem_keys {group : List Declared.IndexUse}
    (hgroup : group ∈ Declared.groupUses (declared.usesIn d)) {name : String}
    (h : .column name ∈ (Declared.assembleIndex declared.tableName group).keys) :
    name ∈ declared.columnNamesIn d ∨
      name = "" ∧ ∃ u ∈ declared.usesIn d, u.expr = some "" := by
  rw [Declared.keys_assembleIndex, List.mem_map] at h
  obtain ⟨u, hu, hkey⟩ := h
  have hu : u ∈ declared.usesIn d :=
    Declared.mem_of_mem_groupUses hgroup (List.mem_mergeSort.mp hu)
  unfold Declared.IndexUse.key at hkey
  split at hkey
  · rename_i text hexpr
    split at hkey
    · rename_i hempty
      cases hkey
      rw [String.isEmpty_iff.mp hempty] at hexpr
      exact Or.inr ⟨rfl, u, hu, hexpr⟩
    · cases hkey
  · cases hkey
    exact Or.inl (column_mem_of_mem_usesIn hu)

/-- An empty expression is a key without a name. -/
theorem exists_column_mem_keys {u : Declared.IndexUse} (hu : u ∈ declared.usesIn d)
    (hexpr : u.expr = some "") :
    ∃ i ∈ declared.indicesIn d, .column "" ∈ i.keys := by
  have hkey : u.key = .column "" := by
    rw [Declared.IndexUse.key, hexpr]
    rfl
  exact hkey ▸ exists_key_mem_keys hu

/-- **The table of one definition** names only its own columns just if the definition does so where
nothing is looked up. -/
theorem Declares.namesOwnColumns_iff (h : declared.Declares d t) :
    t.NamesOwnColumns ↔ declared.NamesOwnColumnsIn d := by
  constructor
  · intro hnames
    constructor
    · intro u hu hexpr
      obtain ⟨i, hi, hkey⟩ := exists_column_mem_keys hu hexpr
      exact h.columns ▸ hnames.keys i (h.indices ▸ hi) "" hkey
    · intro i hi name hname
      have hi : i ∈ t.indices := h.indices ▸ mem_indicesIn_iff.mpr (Or.inr hi)
      exact h.columns ▸ hnames.carried i hi name hname
  · intro hdeclared
    refine ⟨h.usesOwnColumns.constraints, fun i hi name hname => ?_, fun i hi name hname => ?_⟩
    · rw [h.columns]
      rcases mem_indicesIn_iff.mp (h.indices ▸ hi) with ⟨group, hgroup, rfl⟩ | hi
      · rcases mem_columnNamesIn_or_of_mem_keys hgroup hname with hname | ⟨rfl, u, hu, hexpr⟩
        · exact hname
        · exact hdeclared.exprs u hu hexpr
      · exact h.ownIndices i hi name (Index.mem_columns_of_mem_keys hname)
    · rw [h.columns]
      rcases mem_indicesIn_iff.mp (h.indices ▸ hi) with ⟨group, -, rfl⟩ | hi
      · rw [Declared.carried_assembleIndex] at hname
        cases hname
      · exact hdeclared.carried i hi name hname

end TableDef

namespace DeclaredSchema

variable {d : Dialect} {policy : ModifierPolicy} {definitions : List TableDef} {s : DeclaredSchema}

/-- **The columns that the tables of a declared schema name.** All keys are over columns of their
table, and so are all keys of indices that have a name. Beyond that, the table of each definition
names only its own columns just if the definition names no others where nothing looks them up:
among the columns that its indices carry, and in expressions that are empty. -/
theorem build_namesOwnColumns_iff (h : build d policy definitions = .ok s) :
    (∀ t ∈ s.tables, t.ConstrainsOwnColumns ∧ ∀ i ∈ t.indices, ∀ name, .column name ∈ i.keys →
      name = "" ∨ name ∈ t.columns.map (·.name)) ∧
    List.Forall₂ (fun declared t => t.NamesOwnColumns ↔ declared.NamesOwnColumnsIn d)
      (kept d definitions) s.tables := by
  have hown := usesOwnColumns_of_build h
  constructor
  · exact fun t ht => ⟨(hown t ht).constraints, fun i hi name hname =>
      (hown t ht).indices i hi name (Index.mem_columns_of_mem_keys hname)⟩
  · exact (forall₂_declares_of_build h).imp fun _ _ => TableDef.Declares.namesOwnColumns_iff

end DeclaredSchema

/-- Films are found by their title, and the index carries another column. -/
def filmCarrying (carried : String) : TableDef where
  name := "film"
  directive := "index=\x7b. cols=title include=" ++ carried ++ "\x7d"
  columns := [{ field := "title", kind := .string }, { field := "year", kind := .number }]

/-- Reviews are found by an expression, which was left empty. -/
def reviewByExpression : TableDef where
  name := "review"
  columns := [{ field := "text", kind := .string, directive := "index=\x7b. expr=\x7b\x7d\x7d" }]

/-- The table of films carries the year in its index, which is a column of it. The table of reviews
has an index over a column without a name. -/
theorem build_namesOwnColumns_iff_filmAndReview :
    ∃ s film review,
      DeclaredSchema.build .postgres .warn [filmCarrying "year", reviewByExpression] = .ok s ∧
      s.tables = [film, review] ∧
      film.NamesOwnColumns ∧ film.indices.map (·.carried) = [["year"]] ∧
      ¬review.NamesOwnColumns ∧ review.indices.map (·.keys) = [[.column ""]] := by
  obtain ⟨s, hbuild, hindices⟩ : ∃ s,
      DeclaredSchema.build .postgres .warn [filmCarrying "year", reviewByExpression] = .ok s ∧
      s.tables.map (fun t => (t.indices.map (·.carried), t.indices.map (·.keys))) =
        [([["year"]], [[.column "title"]]), ([[]], [[.column ""]])] := by
    decide +kernel
  obtain ⟨film, rest, htables, hfilmIndices, hrest⟩ := List.map_eq_cons_iff.mp hindices
  obtain ⟨review, rfl, hreviewIndices⟩ := List.map_eq_singleton_iff.mp hrest
  have hcarried := (Prod.mk.inj hfilmIndices).1
  have hkeys := (Prod.mk.inj hreviewIndices).2
  have hall := (DeclaredSchema.build_namesOwnColumns_iff hbuild).2
  have hkept : DeclaredSchema.kept .postgres [filmCarrying "year", reviewByExpression] =
      [filmCarrying "year", reviewByExpression] := by
    decide
  rw [hkept, htables] at hall
  obtain ⟨hfilm, hall⟩ := List.forall₂_cons.mp hall
  obtain ⟨hreview, -⟩ := List.forall₂_cons.mp hall
  have hfilmDeclared : (filmCarrying "year").NamesOwnColumnsIn .postgres := by
    have huses : (filmCarrying "year").usesIn .postgres = [] := by decide +kernel
    have hindices :
        ((filmCarrying "year").tableIndicesIn .postgres).map (·.carried) = [["year"]] := by
      decide +kernel
    have hcolumns : (filmCarrying "year").columnNamesIn .postgres = ["title", "year"] := by
      decide +kernel
    refine ⟨fun u hu => ?_, fun i hi name hname => ?_⟩
    · rw [huses] at hu
      cases hu
    · have hi := List.mem_map_of_mem (f := (·.carried)) hi
      rw [hindices, List.mem_singleton] at hi
      rw [hi, List.mem_singleton] at hname
      rw [hcolumns, hname]
      decide
  have hreviewDeclared : ¬reviewByExpression.NamesOwnColumnsIn .postgres := by
    have huses : reviewByExpression.usesIn .postgres =
        [{ label := none, column := "text", expr := some "" }] := by
      decide +kernel
    have hcolumns : reviewByExpression.columnNamesIn .postgres = ["text"] := by decide +kernel
    intro h
    have hempty := h.exprs _ (huses ▸ List.mem_cons_self) rfl
    rw [hcolumns] at hempty
    exact absurd hempty (by decide)
  exact ⟨s, film, review, hbuild, htables, hfilm.mpr hfilmDeclared, hcarried,
    fun h => hreviewDeclared (hreview.mp h), hkeys⟩

/-- The index of the table of films carries a rating, and the table has none. -/
theorem build_carriesMissingRating_film :
    ∃ s film, DeclaredSchema.build .postgres .warn [filmCarrying "rating"] = .ok s ∧
      s.tables = [film] ∧ ¬film.NamesOwnColumns := by
  obtain ⟨s, hbuild, hfilms⟩ : ∃ s,
      DeclaredSchema.build .postgres .warn [filmCarrying "rating"] = .ok s ∧
      s.tables.map (fun t => (t.indices.map (·.carried), t.columns.map (·.name))) =
        [([["rating"]], ["title", "year"])] := by
    decide +kernel
  obtain ⟨film, htables, hfilm⟩ := List.map_eq_singleton_iff.mp hfilms
  obtain ⟨hcarried, hcolumns⟩ := Prod.mk.inj hfilm
  obtain ⟨i, hi, hcarriedBy⟩ := List.map_eq_singleton_iff.mp hcarried
  refine ⟨s, film, hbuild, htables, fun h => ?_⟩
  have hrating := h.carried i (hi ▸ List.mem_cons_self) "rating" (hcarriedBy ▸ List.mem_cons_self)
  rw [hcolumns] at hrating
  exact absurd hrating (by decide)

end AdditiveSchema
