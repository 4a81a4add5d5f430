import AdditiveSchema.Declared.Schema
import AdditiveSchema.Proofs.Catalog

/-!
# Catalogs as maps

A catalog is a map from names to tables in normal form, and inserting is writing to it: the last
table of a name counts, whatever was there before, and what is written can be written again. A name
is looked up, listed and read with its schema filled in, so that all ways to ask for a table agree
on whether it is there.

## Main results

* `Catalog.insert_eq_self` : writing a table of the catalog again changes nothing.
* `Catalog.hasTable_iff`, `Catalog.exists_require_map_iff` : which tables are there.
* `Catalog.ofTables_lastOfEachName` : the catalog after any row of insertions.
* `Table.foldKeys_exact` : the form of a table in a catalog and that of the same table declared.
-/

namespace AdditiveSchema

namespace Catalog

variable {d : String} {inserted : List Table}

/-! ### Writing -/

/-- The names under which tables are kept are those that they have once their schemas are filled
in. -/
theorem map_qualifiedName_normalize (d : String) (tables : List Table) :
    (tables.map (normalize d)).map Table.qualifiedName =
      tables.map fun t => t.qualifiedName.resolve d := by
  rw [List.map_map]
  exact List.map_congr_left fun t _ => qualifiedName_normalize d t

/-- **The last table of a name counts,** and it is kept in normal form. -/
theorem table?_ofTables_eq (d : String) (inserted : List Table) (n : QualifiedName) :
    (ofTables d inserted).table? n =
      (inserted.reverse.find? fun t => t.qualifiedName.resolve d == n.resolve d).map
        (normalize d) := by
  rw [table?, ofTables_eq, Keyed.find?_ofList, ← List.map_reverse, List.find?_map]
  simp only [Function.comp_def, qualifiedName_normalize]

/-- **A table of the catalog may be written again.** -/
theorem insert_eq_self {t : Table} (ht : t ∈ (ofTables d inserted).tables) :
    (ofTables d inserted).insert t = ofTables d inserted := by
  obtain ⟨u, -, rfl⟩ := mem_tables_ofTables ht
  have hnormal : normalize (ofTables d inserted).defaultSchema (normalize d u) = normalize d u := by
    rw [defaultSchema_ofTables, normalize_normalize]
  rw [insert, hnormal, (isSorted_ofTables d inserted).insert_eq_self ht]

/-- **Tables of different names may be written in any order.** -/
theorem ofTables_append_perm {more others : List Table} (hperm : more.Perm others)
    (h : (more.map fun t => t.qualifiedName.resolve d).Nodup) :
    ofTables d (inserted ++ more) = ofTables d (inserted ++ others) := by
  have hnames : ((more.map (normalize d)).map Table.qualifiedName).Nodup := by
    rwa [map_qualifiedName_normalize]
  rw [ofTables_eq, ofTables_eq, List.map_append, List.map_append,
    Keyed.ofList_append_perm (hperm.map _) hnames]

/-! ### Asking for a table -/

/-- A table is listed just if it is found. -/
theorem hasTable_iff {c : Catalog} {n : QualifiedName} :
    c.view.hasTable n = true ↔ (c.table? n).isSome = true := by
  rw [View.hasTable, List.contains_iff_mem, table?, Keyed.find?, List.find?_isSome,
    ← List.any_eq_true, Keyed.any_key_iff]
  rfl

/-- What belongs to a table can be read just if the table is found. -/
theorem exists_require_map_iff {α : Type} {c : Catalog} {n : QualifiedName} (f : Table → α) :
    (∃ a, (c.require n).map f = .ok a) ↔ (c.table? n).isSome = true := by
  unfold require
  cases c.table? n with
  | none => simp [Except.map]
  | some t => simp [Except.map]

/-- **Catalogs are maps to the last table of each name.** Each table is kept once, under its own
name, and is the last one written under it, with its schemas filled in and its keys folded. Writing
it again changes nothing, and tables of different names may be written in any order, whatever was
there. A name, with its schema or without, is listed just if a table is found under it and just if
its columns, its constraints and its indices can be read. -/
theorem ofTables_lastOfEachName (d : String) (inserted : List Table) :
    Keyed.IsSorted Table.qualifiedName (ofTables d inserted).tables ∧
    (∀ n t, (ofTables d inserted).table? n = some t → t.qualifiedName = n.resolve d) ∧
    (∀ n, (ofTables d inserted).table? n =
      (inserted.reverse.find? fun t => t.qualifiedName.resolve d == n.resolve d).map
        fun t => (t.resolve d).foldKeys) ∧
    (∀ t ∈ (ofTables d inserted).tables, (ofTables d inserted).insert t = ofTables d inserted) ∧
    (∀ more others : List Table, more.Perm others →
      (more.map fun t => t.qualifiedName.resolve d).Nodup →
        ofTables d (inserted ++ more) = ofTables d (inserted ++ others)) ∧
    ∀ n, ((ofTables d inserted).view.hasTable n = true ↔
        ((ofTables d inserted).table? n).isSome = true) ∧
      ((ofTables d inserted).view.hasTable n = true ↔
        (∃ columns, (ofTables d inserted).view.columns n = .ok columns) ∧
        (∃ constraints, (ofTables d inserted).view.constraints n = .ok constraints) ∧
        ∃ indices, (ofTables d inserted).view.indices n = .ok indices) := by
  refine ⟨isSorted_ofTables d inserted, fun n t ht => ?_, table?_ofTables_eq d inserted,
    fun t ht => insert_eq_self ht, fun more others => ofTables_append_perm, fun n => ?_⟩
  · rw [qualifiedName_of_table? ht, defaultSchema_ofTables]
  · have hread {α : Type} (f : Table → α) :=
      exists_require_map_iff (c := ofTables d inserted) (n := n) f
    refine ⟨hasTable_iff, ?_⟩
    rw [hasTable_iff]
    constructor
    · exact fun h => ⟨(hread _).mpr h, (hread _).mpr h, (hread _).mpr h⟩
    · exact fun h => (hread _).mp h.1

/-- A table of films with one column, which is not its key. -/
def keylessFilm : Table where
  name := "film"
  columns := [{ name := "film_id" }]

/-- The table of films as a database reports it, with its schema and the key as a constraint. -/
def reportedFilm : Table where
  schema := "public"
  name := "film"
  columns := [{ name := "film_id" }]
  constraints := [{ name := "film_pkey", kind := .primaryKey, columns := ["film_id"] }]

/-- A table of languages in a schema of its own. -/
def archivedLanguage : Table where
  schema := "archive"
  name := "language"

/-- Where `public` is the default, the reported table of films takes the place of the one without a
key, with its own key as a flag. It may be written again, and languages before or after it. -/
theorem ofTables_lastOfEachName_film :
    ∃ film, (ofTables "public" [keylessFilm, archivedLanguage, reportedFilm]).table? ⟨"", "film"⟩ =
        some film ∧
      film.columns.map (·.primaryKey) = [true] ∧ film.constraints = [] ∧
      (ofTables "public" [keylessFilm, archivedLanguage, reportedFilm]).insert film =
        ofTables "public" [keylessFilm, archivedLanguage, reportedFilm] ∧
      ofTables "public" [keylessFilm, archivedLanguage, reportedFilm] =
        ofTables "public" [keylessFilm, reportedFilm, archivedLanguage] ∧
      ¬(ofTables "public" [keylessFilm, archivedLanguage, reportedFilm]).view.hasTable
        ⟨"", "language"⟩ = true := by
  obtain ⟨-, -, hlast, hagain, -, hfound⟩ :=
    ofTables_lastOfEachName "public" [keylessFilm, archivedLanguage, reportedFilm]
  obtain ⟨-, -, -, -, horder, -⟩ := ofTables_lastOfEachName "public" [keylessFilm]
  have hfilm : (ofTables "public" [keylessFilm, archivedLanguage, reportedFilm]).table?
      ⟨"", "film"⟩ = some (normalize "public" reportedFilm) := hlast _
  refine ⟨_, hfilm, by decide, by decide, hagain _ (mem_of_table? hfilm), ?_, ?_⟩
  · exact horder [archivedLanguage, reportedFilm] [reportedFilm, archivedLanguage]
      (List.Perm.swap ..) (by decide)
  · rw [(hfound ⟨"", "language"⟩).1, hlast]
    decide

end Catalog

/-! ### Writing and declaring -/

/-- **What folding does, and how it goes together with filling in schemas.** Exactly the keys that
a flag can stand for are taken out of the table, the first column of each of their names has the
flag, and nothing else is changed; the second time, nothing is changed at all. It does not matter
whether schemas are filled in before or afterwards, so a table that is declared, whose schemas are
filled in for a comparison, and the same table when it is inserted in a catalog are equal. -/
theorem Table.foldKeys_exact (t : Table) :
    t.foldKeys.IsFoldOf t ∧ t.foldKeys.foldKeys = t.foldKeys ∧
    (∀ d, t.foldKeys.resolve d = (t.resolve d).foldKeys) ∧
    ∀ (s : DeclaredSchema) (c : Catalog), ∃ u,
      (s.addTable t).tables.map (resolve c.defaultSchema) =
        s.tables.map (resolve c.defaultSchema) ++ [u] ∧
      (c.insert t).table? t.qualifiedName = some u := by
  refine ⟨t.isFoldOf_foldKeys, foldKeys_foldKeys t, fun d => (foldKeys_resolve d t).symm,
    fun s c => ⟨t.foldKeys.resolve c.defaultSchema, ?_, ?_⟩⟩
  · rw [DeclaredSchema.addTable, List.map_append, List.map_singleton]
  · rw [Catalog.table?_insert, if_pos rfl, Catalog.normalize, foldKeys_resolve]

end AdditiveSchema
