import AdditiveSchema.Except
import AdditiveSchema.Proofs.DeclaredItems

/-!
# Definitions that a dialect does not have

A definition can be switched off for a dialect. The other definitions are read as if it were not
there, and the schema lists the name of its table. But that name is taken from the definition
itself: its directive, which may rename the table, is never read. So the listed name is the one that
the table would have just if the directive leaves the name as it is.

## Main definitions

* `TableDef.unskipped` : the definition, switched on for a dialect.
* `TableDef.IsRenamed` : the directive gives the table another name.

## Main results

* `DeclaredSchema.build_eq_map_build_kept` : the schema of the definitions that the dialect has.
* `DeclaredSchema.build_skipped_iff` : the names of the others.
-/

namespace AdditiveSchema

namespace TableDef

variable {d : Dialect} {declared : TableDef}

/-- The definition with its switch for the dialect turned on. -/
def unskipped (declared : TableDef) (d : Dialect) : TableDef :=
  match declared.customization? d with
  | some custom => declared.customize d { custom with skip := false }
  | none => declared

/-- The directive gives the table another name than the definition. -/
def IsRenamed (declared : TableDef) : Prop :=
  ∃ m, declared.modifiers.reverse.find? (·.name == "name") = some m ∧ m.value ≠ declared.name

theorem customization?_customize (d : Dialect) (custom : Customization) (declared : TableDef) :
    (declared.customize d custom).customization? d = some custom := by
  unfold customize customization?
  induction declared.dialects with
  | nil => exact List.lookup_cons_self
  | cons other dialects ih =>
    simp only [Keyed.insert]
    split
    · exact List.lookup_cons_self
    · exact List.lookup_cons_self
    · rename_i hgt
      have hne : (d == other.1) = false := by
        rw [beq_eq_false_iff_ne]
        rintro rfl
        exact absurd hgt (by cases other.1 <;> decide)
      rw [List.lookup_cons, hne]
      exact ih

theorem unskipped_of_customization? {custom : Customization}
    (h : declared.customization? d = some custom) :
    declared.unskipped d = declared.customize d { custom with skip := false } := by
  rw [unskipped, h]

theorem customization?_unskipped (declared : TableDef) (d : Dialect) :
    (declared.unskipped d).customization? d =
      (declared.customization? d).map fun custom => { custom with skip := false } := by
  cases h : declared.customization? d with
  | none => rw [unskipped, h, h, Option.map_none]
  | some custom =>
    rw [unskipped_of_customization? h, customization?_customize, Option.map_some]

theorem name_unskipped (declared : TableDef) (d : Dialect) :
    (declared.unskipped d).name = declared.name := by
  unfold unskipped
  split <;> rfl

/-- Switched on, the definition is not skipped. -/
theorem isSkippedIn_unskipped (declared : TableDef) (d : Dialect) :
    (declared.unskipped d).isSkippedIn d = false := by
  rw [isSkippedIn, customization?_unskipped, Option.any_map]
  cases declared.customization? d <;> rfl

/-- The switch does not change the name of the table. -/
theorem nameIn_unskipped (declared : TableDef) (d : Dialect) :
    (declared.unskipped d).nameIn d = declared.nameIn d := by
  have hschema : (declared.unskipped d).schemaIn d = declared.schemaIn d := by
    unfold schemaIn
    rw [customization?_unskipped]
    cases h : declared.customization? d with
    | none => rw [unskipped, h]; rfl
    | some custom => rw [unskipped_of_customization? h]; rfl
  have hmodifiers : (declared.unskipped d).modifiers = declared.modifiers := by
    unfold unskipped
    split <;> rfl
  rw [nameIn, nameIn, hschema, hmodifiers, name_unskipped]

/-- The last name that the directive gives counts. -/
theorem nameOr_eq_name_iff :
    Declared.nameOr declared.name declared.modifiers = declared.name ↔ ¬declared.IsRenamed := by
  unfold Declared.nameOr IsRenamed
  cases declared.modifiers.reverse.find? (·.name == "name") with
  | none => simp
  | some m => simp

end TableDef

namespace DeclaredSchema

variable {d : Dialect} {policy : ModifierPolicy} {definitions : List TableDef}
  {declared : TableDef} {t : Table}

theorem kept_kept (d : Dialect) (definitions : List TableDef) :
    kept d (kept d definitions) = kept d definitions := by
  rw [kept, kept, List.filter_filter]
  simp only [Bool.and_self]

/-- **The definitions that the dialect has** lead to the same schema without the others, or to the
same errors. -/
theorem build_eq_map_build_kept (d : Dialect) (policy : ModifierPolicy)
    (definitions : List TableDef) :
    build d policy definitions = (build d policy (kept d definitions)).map fun s =>
      { s with skipped := (definitions.filter (·.isSkippedIn d)).map (skippedName d) } := by
  have hblockers : blockers d policy (kept d definitions) = blockers d policy definitions := by
    rw [blockers, blockers, kept_kept]
  rw [build_eq, build_eq, hblockers]
  split
  · simp only [Except.map, candidate, kept_kept]
  · rfl

/-- **The name of a skipped table** is the one that the table has once its definition is switched
on, unless the directive renames the table. -/
theorem skippedName_eq_iff
    (h : (Declared.keepSound policy (Declared.readTable d (declared.unskipped d))).value = some t) :
    skippedName d declared = t.qualifiedName ↔ ¬declared.IsRenamed := by
  have hsound := Declared.isSound_of_keepSound h
  obtain ⟨u, hu, hdeclares⟩ := Declared.exists_declares_of_isSound hsound
  have ht : t.qualifiedName = declared.nameIn d := by
    rw [Declared.keepSound_of_isSound hsound, hu, Option.some.injEq] at h
    rw [← h, ← declared.nameIn_unskipped d, ← hdeclares.qualifiedName]
  rw [ht, ← TableDef.nameOr_eq_name_iff, TableDef.nameIn, skippedName, QualifiedName.mk.injEq]
  exact ⟨fun h => h.2.symm, fun h => ⟨rfl, h.symm⟩⟩

/-- **Definitions that the dialect does not have.** The definitions give the same tables and
warnings as those among them that the dialect has, or the same errors. The schema lists the others
in order, each under the schema and the name of its definition. That is the name of its table just
if the directive does not rename the table: it is the name of the table that is read once the
definition is switched on, whenever there is one. -/
theorem build_skipped_iff (d : Dialect) (policy : ModifierPolicy) (definitions : List TableDef) :
    (build d policy definitions = (build d policy (kept d definitions)).map fun s =>
      { s with skipped := (definitions.filter (·.isSkippedIn d)).map (skippedName d) }) ∧
    ∀ declared ∈ definitions, declared.isSkippedIn d = true →
      (declared.unskipped d).isSkippedIn d = false ∧
      ∀ t,
        (Declared.keepSound policy (Declared.readTable d (declared.unskipped d))).value = some t →
        (skippedName d declared = t.qualifiedName ↔ ¬declared.IsRenamed) :=
  ⟨build_eq_map_build_kept d policy definitions, fun declared _ _ =>
    ⟨declared.isSkippedIn_unskipped d, fun _ h => skippedName_eq_iff h⟩⟩

end DeclaredSchema

/-- Only SQLite has the table for searching the texts of films. PostgreSQL would have it in another
schema, and the directive may rename it. -/
def filmTextDefinition (directive : String) : TableDef where
  name := "film_text"
  directive := directive
  columns := [{ field := "title", kind := .string }]
  dialects := [(.postgres, { schema := some "cinema", skip := true })]

/-- The table of film texts in PostgreSQL, if it had it. -/
def filmTextTable (name : String) : Table where
  schema := "cinema"
  name := name
  columns := [{ name := "title", columnType := "TEXT", kind := some .string }]

/-- The first of two skipped tables is not renamed and is listed under its name. The second one is
renamed and is listed under a name that it would not have. -/
theorem build_skipped_iff_filmText :
    ∃ s, DeclaredSchema.build .postgres .warn
        [filmTextDefinition "fts5", filmTextDefinition "name=film_search"] = .ok s ∧
      s.tables = [] ∧ s.skipped = [⟨"cinema", "film_text"⟩, ⟨"cinema", "film_text"⟩] ∧
      DeclaredSchema.skippedName .postgres (filmTextDefinition "fts5") =
        (filmTextTable "film_text").qualifiedName ∧
      DeclaredSchema.skippedName .postgres (filmTextDefinition "name=film_search") ≠
        (filmTextTable "film_search").qualifiedName := by
  obtain ⟨hbuild, hnames⟩ := DeclaredSchema.build_skipped_iff .postgres .warn
    [filmTextDefinition "fts5", filmTextDefinition "name=film_search"]
  have hkept : DeclaredSchema.kept .postgres
      [filmTextDefinition "fts5", filmTextDefinition "name=film_search"] = [] := by
    decide
  have hempty : DeclaredSchema.build .postgres .warn [] = .ok { dialect := .postgres } := by
    decide
  rw [hkept, hempty] at hbuild
  have htext := (hnames (filmTextDefinition "fts5") (by simp) (by decide)).2
    (filmTextTable "film_text") (by decide +kernel)
  have hsearch := (hnames (filmTextDefinition "name=film_search") (by simp) (by decide)).2
    (filmTextTable "film_search") (by decide +kernel)
  have hmodifiers : (filmTextDefinition "name=film_search").modifiers =
      [⟨"name", "film_search"⟩] := by
    decide +kernel
  have hrenamed : (filmTextDefinition "name=film_search").IsRenamed := by
    refine ⟨⟨"name", "film_search"⟩, ?_, by decide⟩
    rw [hmodifiers]
    rfl
  have hplain : ¬(filmTextDefinition "fts5").IsRenamed := by
    have hmodifiers : (filmTextDefinition "fts5").modifiers = [⟨"fts5", ""⟩] := by decide +kernel
    rintro ⟨m, hm, -⟩
    rw [hmodifiers] at hm
    exact absurd hm (by simp)
  exact ⟨_, hbuild, rfl, rfl, htext.mpr hplain, fun h => hsearch.mp h hrenamed⟩

/-- A table that its directive renames is listed under the name of its definition. -/
theorem build_listsOldName_filmText :
    ∃ s s' t, DeclaredSchema.build .postgres .warn [filmTextDefinition "name=film_search"] = .ok s ∧
      DeclaredSchema.build .postgres .warn
        [(filmTextDefinition "name=film_search").unskipped .postgres] = .ok s' ∧
      s'.tables = [t] ∧ s.skipped ≠ [t.qualifiedName] := by
  let declared := filmTextDefinition "name=film_search"
  obtain ⟨s, hbuild, hskipped⟩ : ∃ s, DeclaredSchema.build .postgres .warn [declared] = .ok s ∧
      s.skipped ≠ [(filmTextTable "film_search").qualifiedName] := by
    decide +kernel
  obtain ⟨s', hbuild', htables⟩ : ∃ s',
      DeclaredSchema.build .postgres .warn [declared.unskipped .postgres] = .ok s' ∧
      s'.tables = [filmTextTable "film_search"] := by
    decide +kernel
  exact ⟨s, s', _, hbuild, hbuild', htables, hskipped⟩

end AdditiveSchema
