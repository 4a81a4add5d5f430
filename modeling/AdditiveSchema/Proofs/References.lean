import AdditiveSchema.Proofs.Declared
import AdditiveSchema.Proofs.Reconcile

/-!
# The targets of references

A reference that names a table without its schema means one of the declared tables. Its schema is
filled in twice: when all definitions are read, by the schema of that table, and when the declared
tables are compared with a catalog, by the schema of the table that holds the reference. The second
time matters only if the first one left the schema empty. So the reference goes to another table
than the one it means just if that table lives in the default schema without saying so, and the
table that holds the reference does not live there.

## Main results

* `DeclaredSchema.exists_resolved_reference` : where a reference without schema goes in the end.
* `DeclaredSchema.reference_keepsTarget_iff` : when it goes to the table that it means.
-/

namespace AdditiveSchema

namespace Declared

variable {tables : List Table} {origin target : Table}

/-- A target that is found is a declared table of that name. -/
theorem of_findTarget {n : QualifiedName} (h : findTarget tables origin n = some target) :
    target ∈ tables ∧ target.name = n.name := by
  have hmem : target ∈ tables.filter (·.name == n.name) := by
    simp only [findTarget] at h
    split at h
    · rcases Option.or_eq_some_iff.mp h with h | ⟨-, h⟩
      · exact List.mem_of_find?_eq_some h
      · exact List.mem_of_mem_head? h
    · exact List.mem_of_find?_eq_some h
  obtain ⟨hmem, hname⟩ := List.mem_filter.mp hmem
  exact ⟨hmem, eq_of_beq hname⟩

/-- The schema of a target that is found is filled in, whatever becomes of the column. -/
theorem table_resolveReference {fk : ForeignKey}
    (h : findTarget tables origin fk.table = some target) (field : String) :
    (resolveReference tables origin field fk).value.table = fk.table.resolve target.schema := by
  simp only [resolveReference, h]
  split
  · rfl
  · split <;> rfl

theorem references_resolveColumn {c : Column} {fk : ForeignKey} (h : c.references = some fk) :
    (resolveColumn tables origin c).value.references =
      some (resolveReference tables origin (origin.name ++ "." ++ c.name) fk).value := by
  unfold resolveColumn
  split
  · rename_i hnone
    cases hnone.symm.trans h
  · rename_i fk' hfk'
    cases hfk'.symm.trans h
    rfl

end Declared

namespace DeclaredSchema

variable {d : Dialect} {policy : ModifierPolicy} {definitions : List TableDef} {s : DeclaredSchema}

theorem resolved_of_build (h : build d policy definitions = .ok s) (defaultSchema : String) :
    s.resolved defaultSchema = (drafts d policy definitions).map fun t =>
      (Declared.link (drafts d policy definitions) t).resolve defaultSchema := by
  rw [resolved, tables_of_build h, List.map_map]
  rfl

/-- Declared tables keep their names, with the schemas filled in. -/
theorem exists_resolved_of_mem_drafts (h : build d policy definitions = .ok s)
    (defaultSchema : String) {t : Table} (ht : t ∈ drafts d policy definitions) :
    ∃ u ∈ s.resolved defaultSchema, u.qualifiedName = t.qualifiedName.resolve defaultSchema := by
  rw [resolved_of_build h]
  exact ⟨_, List.mem_map_of_mem ht, Table.qualifiedName_resolve _ _⟩

/-- **Where a reference without schema goes in the end:** the schema of the table that it means is
filled in by the one of the table that holds it. -/
theorem exists_resolved_reference (h : build d policy definitions = .ok s)
    (defaultSchema : String) {i j : Nat} {origin target : Table} {column : Column}
    {fk : ForeignKey} (horigin : (drafts d policy definitions)[i]? = some origin)
    (hcolumn : origin.columns[j]? = some column) (hfk : column.references = some fk)
    (hbare : fk.table.schema = "")
    (htarget : Declared.findTarget (drafts d policy definitions) origin fk.table = some target) :
    ∃ t c key, (s.resolved defaultSchema)[i]? = some t ∧ t.columns[j]? = some c ∧
      c.references = some key ∧
      key.table =
        target.qualifiedName.resolve (origin.qualifiedName.resolve defaultSchema).schema := by
  have hread : fk.table.resolve target.schema = target.qualifiedName := by
    rw [QualifiedName.resolve, if_pos (by rw [hbare]; rfl), Table.qualifiedName,
      (Declared.of_findTarget htarget).2]
  let tables := drafts d policy definitions
  let schema := (origin.qualifiedName.resolve defaultSchema).schema
  let filled :=
    (Declared.resolveReference tables origin (origin.name ++ "." ++ column.name) fk).value
  refine ⟨(Declared.link tables origin).resolve defaultSchema,
    Table.resolveReference schema (Declared.resolveColumn tables origin column).value,
    { filled with table := filled.table.resolve schema }, ?_, ?_, ?_, ?_⟩
  · rw [resolved_of_build h, List.getElem?_map, horigin, Option.map_some]
  · simp only [Table.resolve, Declared.link, List.getElem?_map, hcolumn, Option.map_some]
    rfl
  · simp only [Table.resolveReference, Declared.references_resolveColumn hfk, Option.map_some]
    rfl
  · change filled.table.resolve schema = _
    rw [Declared.table_resolveReference htarget, hread]

/-- **When a reference without schema goes to the table that it means.** Let a declared table hold
a reference to a table whose schema is left out, and let that mean another declared table. Once all
schemas are filled in, the reference goes to that table if and only if that table was declared with
a schema, or else the table that holds the reference lives in the default schema. -/
theorem reference_keepsTarget_iff (hbuild : build d policy definitions = .ok s)
    (defaultSchema : String) {i j : Nat} {origin target : Table} {column : Column}
    {fk : ForeignKey} (horigin : (drafts d policy definitions)[i]? = some origin)
    (hcolumn : origin.columns[j]? = some column) (hfk : column.references = some fk)
    (hbare : fk.table.schema = "")
    (htarget : Declared.findTarget (drafts d policy definitions) origin fk.table = some target) :
    ∃ t c key, (s.resolved defaultSchema)[i]? = some t ∧ t.columns[j]? = some c ∧
      c.references = some key ∧
      ∃ u ∈ s.resolved defaultSchema,
        u.qualifiedName = target.qualifiedName.resolve defaultSchema ∧
        (key.table = u.qualifiedName ↔
          (target.schema = "" → origin.schema = "" ∨ origin.schema = defaultSchema)) := by
  obtain ⟨t, c, key, ht, hc, hkey, htable⟩ :=
    exists_resolved_reference hbuild defaultSchema horigin hcolumn hfk hbare htarget
  obtain ⟨u, hu, hname⟩ := exists_resolved_of_mem_drafts hbuild defaultSchema
    (Declared.of_findTarget htarget).1
  refine ⟨t, c, key, ht, hc, hkey, u, hu, hname, ?_⟩
  rw [htable, hname, QualifiedName.resolve_eq_resolve_iff, QualifiedName.schema_resolve_eq_iff]
  rfl

end DeclaredSchema

/-- Members of staff belong to a store, whose table may live in another schema. -/
def storeOfStaffDefinitions (staff store : String) : List TableDef := [
  { name := "staff"
    schema := staff
    columns := [
      { field := "staff_id", kind := .number, directive := "primarykey" },
      { field := "store_id", kind := .number, directive := "references=store" }] },
  { name := "store"
    schema := store
    columns := [{ field := "store_id", kind := .number, directive := "primarykey" }] }]

/-- The tables of these definitions. The reference is not filled in yet. -/
def storeOfStaffDrafts (staff store : String) : List Table := [
  { name := "staff"
    schema := staff
    columns := [
      { name := "staff_id", columnType := "INT", kind := some .number, notNull := true,
        primaryKey := true },
      { name := "store_id", columnType := "INT", kind := some .number,
        references := some { table := { name := "store" }, column := "" } }] },
  { name := "store"
    schema := store
    columns := [
      { name := "store_id", columnType := "INT", kind := some .number, notNull := true,
        primaryKey := true }] }]

/-- From the default schema, a store with a schema of its own is found. -/
theorem reference_keepsTarget_iff_storeOfStaff :
    ∃ s, DeclaredSchema.build .postgres .warn (storeOfStaffDefinitions "" "hr") = .ok s ∧
      ∃ t c key, (s.resolved "public")[0]? = some t ∧ t.columns[1]? = some c ∧
        c.references = some key ∧
        ∃ u ∈ s.resolved "public", u.qualifiedName = ⟨"hr", "store"⟩ ∧
          key.table = u.qualifiedName := by
  obtain ⟨s, hbuild⟩ : ∃ s, DeclaredSchema.build .postgres .warn
      (storeOfStaffDefinitions "" "hr") = .ok s := Except.isOk_iff.mp (by decide +kernel)
  have hdrafts : DeclaredSchema.drafts .postgres .warn (storeOfStaffDefinitions "" "hr") =
      storeOfStaffDrafts "" "hr" := by
    decide +kernel
  obtain ⟨t, c, key, ht, hc, hkey, u, hu, hname, hiff⟩ :=
    DeclaredSchema.reference_keepsTarget_iff hbuild "public" (i := 0) (j := 1)
      (by rw [hdrafts]; rfl) rfl rfl rfl (by rw [hdrafts]; rfl)
  exact ⟨s, hbuild, t, c, key, ht, hc, hkey, u, hu, hname, hiff.mpr (by decide)⟩

/-- From a schema of its own, a store in the default schema is missed: the reference means the
store, but goes to a table of the schema where the staff live. -/
theorem reference_missesTarget_storeOfStaff :
    let tables := DeclaredSchema.drafts .postgres .warn (storeOfStaffDefinitions "hr" "")
    ∃ s, DeclaredSchema.build .postgres .warn (storeOfStaffDefinitions "hr" "") = .ok s ∧
      ∃ origin target column fk, tables[0]? = some origin ∧ origin.columns[1]? = some column ∧
        column.references = some fk ∧ fk.table.schema = "" ∧
        Declared.findTarget tables origin fk.table = some target ∧
        ∃ t c key, (s.resolved "public")[0]? = some t ∧ t.columns[1]? = some c ∧
          c.references = some key ∧ key.table ≠ (target.resolve "public").qualifiedName := by
  intro tables
  obtain ⟨s, hbuild⟩ : ∃ s, DeclaredSchema.build .postgres .warn
      (storeOfStaffDefinitions "hr" "") = .ok s := Except.isOk_iff.mp (by decide +kernel)
  have htables : tables = storeOfStaffDrafts "hr" "" := by
    unfold tables
    decide +kernel
  have horigin : tables[0]? = some (storeOfStaffDrafts "hr" "")[0] := by rw [htables]; rfl
  have htarget : Declared.findTarget tables (storeOfStaffDrafts "hr" "")[0] { name := "store" } =
      some (storeOfStaffDrafts "hr" "")[1] := by
    rw [htables]
    rfl
  obtain ⟨t, c, key, ht, hc, hkey, htable⟩ := DeclaredSchema.exists_resolved_reference hbuild
    "public" horigin (j := 1) rfl rfl rfl htarget
  refine ⟨s, hbuild, _, _, _, _, horigin, rfl, rfl, rfl, htarget, t, c, key, ht, hc, hkey, ?_⟩
  rw [htable]
  decide

end AdditiveSchema
