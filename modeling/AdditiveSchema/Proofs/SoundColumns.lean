import AdditiveSchema.Except
import AdditiveSchema.Proofs.DeclaredItems

/-!
# Sound columns

A column is put together from the modifiers of its directive, which may be repeated, and from what
the dialect changes of it. Only then is it looked at: a column without a type is given the one of
its kind, and the value of an expression has none; a column may not be generated and have a
default. Whatever passes is kept as it is, so all columns of a declared schema are sound, and a
definition with a column that does not pass has no schema.

## Main definitions

* `Column.IsSound` : a column that can be created.
* `TableDef.isGeneratedIn`, `TableDef.hasDefaultIn` : what a definition says of a column.
* `TableDef.IsFaulty` : a column that does not pass.

## Main results

* `Declared.isSound_of_readColumn` : what is read of one field.
* `Declared.not_isFaulty_of_isSound` : what is reported of one field.
* `DeclaredSchema.build_columnsAreSound` : all fields of all definitions.
-/

namespace AdditiveSchema

open Directive

/-- The column has a type, it is not the one that takes a column out, and its values are not both
generated and given by a default. -/
def Column.IsSound (c : Column) : Prop :=
  c.columnType ≠ "" ∧ c.columnType ≠ ignoredType ∧ ¬(c.generated.isSome ∧ c.default.isSome)

namespace TableDef

variable (declared : TableDef) (d : Dialect) (c : ColumnDef)

/-- The directive or the dialect makes the column a generated one. -/
def isGeneratedIn : Bool :=
  c.modifiers.any (·.name == "generated") || (declared.override? d c).any (·.generated.isSome)

/-- The directive or the dialect gives the column a default. -/
def hasDefaultIn : Bool :=
  c.modifiers.any (·.name == "default") || (declared.override? d c).any (·.default.isSome)

/-- The dialect has the column, but it is the value of an expression and has no type, or it is
generated and has a default. -/
def IsFaulty : Prop :=
  declared.omits d c = false ∧
    (c.kind = .expr ∧ declared.typeIn d c = "" ∨
      declared.isGeneratedIn d c = true ∧ declared.hasDefaultIn d c = true)

end TableDef

/-! ### What rows of steps set -/

/-- A flag that each step sets or leaves as it is has been set if some step sets it. -/
theorem Checked.foldlM_flag {α β : Type} {policy : ModifierPolicy} {step : β → α → Checked β}
    (flag : β → Bool) (sets : α → Bool)
    (hstep : ∀ {b a}, (step b a).IsSound policy → flag (step b a).value = (flag b || sets a))
    {as : List α} {b : β} (h : (as.foldlM step b).IsSound policy) :
    flag (as.foldlM step b).value = (flag b || as.any sets) := by
  induction as generalizing b with
  | nil => exact (Bool.or_false _).symm
  | cons a as ih =>
    rw [List.foldlM_cons] at h ⊢
    obtain ⟨hfirst, hrest⟩ := Checked.isSound_bind.mp h
    rw [value_bind, ih hrest, hstep hfirst, Bool.or_assoc, List.any_cons]

/-- A type that stands for a kind is one. -/
theorem Dialect.defaultType_ne (d : Dialect) {kind : FieldKind} (h : kind ≠ .expr) :
    d.defaultType kind ≠ "" ∧ d.defaultType kind ≠ ignoredType := by
  cases d <;> cases kind <;> first | contradiction | decide

namespace Declared

variable {policy : ModifierPolicy} {d : Dialect} {field : String} {declared : TableDef}
  {c : ColumnDef}

/-! ### What is read of a field -/

/-- A column that passes is sound, unless its type takes it out. -/
theorem isSound_of_completeColumn {kind : FieldKind} {c u : Column}
    (hkept : c.columnType ≠ ignoredType) (h : (completeColumn d field kind c).value = some u) :
    u.IsSound := by
  unfold completeColumn at h
  split at h
  · cases h
  · rename_i htype
    split at h
    · cases h
    · rename_i hsources
      rw [Bool.and_eq_true] at hsources
      cases h
      split
      · rename_i hempty
        have hkind : kind ≠ .expr := by simpa [hempty] using htype
        obtain ⟨hne, hne'⟩ := d.defaultType_ne hkind
        exact ⟨hne, hne', hsources⟩
      · rename_i hempty
        exact ⟨fun h => hempty (String.isEmpty_iff.mpr h), hkept, hsources⟩

/-- **What is read of one field** is sound, whatever else is found. -/
theorem isSound_of_readColumn {table : String} {u : Column}
    (h : (readColumn d table (declared.customization? d) c).value.column = some u) : u.IsSound := by
  cases hms : Directive.modifiers c.directive with
  | error e =>
    rw [readColumn, hms] at h
    cases h
  | ok ms =>
    rw [readColumn_eq hms] at h
    split at h
    · cases h
    · rw [Checked.value_bind] at h
      split at h
      · cases h
      · rename_i hkept
        exact isSound_of_completeColumn (by simpa [Column.isIgnored] using hkept) h

/-- What is read of a table is sound, column by column. -/
theorem ReadsAs.columnsAreSound {t : Table} (h : ReadsAs policy d declared t) :
    ∀ u ∈ t.columns, u.IsSound := by
  obtain ⟨-, t', ht', hadds⟩ := exists_adds_readTable h.isSound
  obtain rfl : t'.foldKeys = t := Option.some.inj (ht'.symm.trans h.value)
  have hcolumns : t'.foldKeys.columns.map Column.IsSound = t'.columns.map Column.IsSound :=
    Table.map_columns_foldKeys (fun kind c => by cases kind <;> rfl) t'
  intro u hu
  obtain ⟨v, hv, heq⟩ := List.mem_map.mp (hcolumns ▸ List.mem_map_of_mem hu)
  rw [← heq]
  rw [hadds.columns] at hv
  obtain ⟨parts, hparts, hcolumn⟩ := List.mem_filterMap.mp hv
  rw [Checked.value_mapM] at hparts
  obtain ⟨c, -, rfl⟩ := List.mem_map.mp hparts
  exact isSound_of_readColumn hcolumn

/-! ### What is reported of a field -/

theorem isSome_readGenerated {value : String} (h : (readGenerated field value).IsSound policy) :
    (readGenerated field value).value.isSome = true := by
  obtain ⟨⟨expr, modifiers⟩, hlex⟩ := Checked.exists_ok_of_ofLexed (Checked.isSound_bind.mp h).1
  rw [readGenerated, hlex]
  rfl

theorem generated_applyColumnModifier {draft : ColumnDraft} {m : Modifier}
    (h : (applyColumnModifier d field draft m).IsSound policy) :
    (applyColumnModifier d field draft m).value.column.generated.isSome =
      (draft.column.generated.isSome || m.name == "generated") := by
  unfold applyColumnModifier at h ⊢
  split at h
  case h_9 hname =>
    have hread := isSome_readGenerated (Checked.isSound_bind.mp h).1
    simp [hname, hread]
  all_goals simp_all [Column.asPrimaryKey]

theorem default_applyColumnModifier (draft : ColumnDraft) (m : Modifier) :
    (applyColumnModifier d field draft m).value.column.default.isSome =
      (draft.column.default.isSome || m.name == "default") := by
  unfold applyColumnModifier
  split <;> simp_all [Column.asPrimaryKey]

section Draft

variable {table : String} (h : (draftColumn d table declared c).IsSound policy)

include h

theorem generated_draftColumn :
    (draftColumn d table declared c).value.column.generated.isSome =
      declared.isGeneratedIn d c := by
  have hgenerated := Checked.foldlM_flag (·.column.generated.isSome) (·.name == "generated")
    generated_applyColumnModifier (Checked.isSound_bind.mp h).1
  simp only [draftColumn, Checked.value_bind, Checked.value_pure, TableDef.isGeneratedIn]
  cases declared.override? d c with
  | none => simpa using hgenerated
  | some o => simp [ColumnOverride.apply, hgenerated, Bool.or_comm]

theorem default_draftColumn :
    (draftColumn d table declared c).value.column.default.isSome = declared.hasDefaultIn d c := by
  have hdefault := Checked.foldlM_flag (·.column.default.isSome) (·.name == "default")
    (fun _ => default_applyColumnModifier _ _) (Checked.isSound_bind.mp h).1
  simp only [draftColumn, Checked.value_bind, Checked.value_pure, TableDef.hasDefaultIn]
  cases declared.override? d c with
  | none => simpa using hdefault
  | some o => simp [ColumnOverride.apply, hdefault, Bool.or_comm]

end Draft

/-- **What is reported of one field:** a fault stands in the way. -/
theorem not_isFaulty_of_isSound {table : String}
    (h : (readColumn d table (declared.customization? d) c).IsSound policy) :
    ¬declared.IsFaulty d c := by
  rintro ⟨homits, hfault⟩
  obtain ⟨ms, hms⟩ := Checked.exists_ok_of_ofLexed (Checked.isSound_bind.mp h).1
  rw [readColumn_of_not_omits hms homits] at h
  obtain ⟨hdraft, hparts⟩ := Checked.isSound_bind.mp h
  have hcomplete := (Checked.isSound_bind.mp (Checked.isSound_bind.mp hparts).2).1
  unfold completeColumn at hcomplete
  rw [columnType_draftColumn, generated_draftColumn hdraft, default_draftColumn hdraft] at hcomplete
  split at hcomplete
  · cases hcomplete _ List.mem_cons_self
  · rename_i htype
    split at hcomplete
    · cases hcomplete _ List.mem_cons_self
    · rename_i hsources
      rcases hfault with ⟨hkind, hempty⟩ | ⟨hgenerated, hdefault⟩
      · exact htype (by simp [hkind, hempty])
      · exact hsources (by simp [hgenerated, hdefault])

end Declared

namespace DeclaredSchema

variable {d : Dialect} {policy : ModifierPolicy} {definitions : List TableDef}

/-! ### All fields -/

/-- **The columns of a declared schema are sound.** Each has a type, which is not the one that takes
a column out, and none is generated and has a default, however often and in whatever order the
directives and the dialect set these. And if some definition has a column that the dialect has, but
that is the value of an expression and ends up without a type, or is generated and has a default,
there is no schema. -/
theorem build_columnsAreSound (d : Dialect) (policy : ModifierPolicy)
    (definitions : List TableDef) :
    (∀ s, build d policy definitions = .ok s → ∀ t ∈ s.tables, ∀ c ∈ t.columns, c.IsSound) ∧
    ((∃ declared ∈ kept d definitions, ∃ c ∈ declared.columns, declared.IsFaulty d c) →
      ∃ errors, build d policy definitions = .error errors) := by
  constructor
  · intro s hbuild t ht c hc
    obtain ⟨added, htables, hall⟩ := forall₂_readsAs_of_build hbuild
    rw [htables] at ht
    obtain ⟨t', ht', rfl⟩ := List.mem_map.mp ht
    obtain ⟨declared, -, hreads⟩ := exists_of_forall₂_right hall ht'
    have hcolumns : (Declared.link added t').columns.map Column.IsSound =
        t'.columns.map Column.IsSound :=
      Declared.map_columns_link (fun _ _ => rfl) added t'
    obtain ⟨u, hu, heq⟩ := List.mem_map.mp (hcolumns ▸ List.mem_map_of_mem hc)
    rw [← heq]
    exact hreads.columnsAreSound u hu
  · rintro ⟨declared, hdeclared, c, hc, hfaulty⟩
    cases hbuild : build d policy definitions with
    | error errors => exact ⟨errors, rfl⟩
    | ok s =>
      obtain ⟨added, -, hall⟩ := forall₂_readsAs_of_build hbuild
      obtain ⟨t, -, hreads⟩ := exists_of_forall₂_left hall hdeclared
      have hparts := (Declared.exists_adds_readTable hreads.isSound).1
      exact absurd hfaulty (Declared.not_isFaulty_of_isSound (Checked.isSound_mapM.mp hparts c hc))

end DeclaredSchema

/-- The text of a film is the value of an expression, which its directive stores, with a type given
twice. MySQL gives it another type and a default, and SQLite takes its type away. -/
def searchedFilm : TableDef where
  name := "film"
  columns := [
    { field := "title", kind := .string, directive := "default=untitled default=unnamed" },
    { field := "words", kind := .expr,
      directive := "type=TEXT generated=\x7b\x7bto_tsvector(title)\x7d stored\x7d type=TSVECTOR" }]
  dialects := [
    (.mysql, { columns := [("words", { columnType := some "TEXT", default := some "0" })] }),
    (.sqlite, { columns := [("words", { columnType := some "" })] })]

/-- The words have the last of their types in PostgreSQL. MySQL makes them faulty by the default,
and SQLite by the missing type. -/
theorem build_columnsAreSound_searchedFilm :
    (∃ s, DeclaredSchema.build .postgres .warn [searchedFilm] = .ok s ∧
      s.tables.map (·.columns.map fun c => (c.columnType, c.generated.isSome, c.default)) =
        [[("TEXT", false, some "unnamed"), ("TSVECTOR", true, none)]] ∧
      ∀ t ∈ s.tables, ∀ c ∈ t.columns, c.IsSound) ∧
    (searchedFilm.IsFaulty .mysql searchedFilm.columns[1] ∧
      ∃ errors, DeclaredSchema.build .mysql .warn [searchedFilm] = .error errors) ∧
    searchedFilm.IsFaulty .sqlite searchedFilm.columns[1] ∧
      ∃ errors, DeclaredSchema.build .sqlite .warn [searchedFilm] = .error errors := by
  have hmysql : searchedFilm.IsFaulty .mysql searchedFilm.columns[1] :=
    ⟨by decide +kernel, Or.inr ⟨by decide +kernel, by decide +kernel⟩⟩
  have hsqlite : searchedFilm.IsFaulty .sqlite searchedFilm.columns[1] :=
    ⟨by decide +kernel, Or.inl ⟨rfl, by decide +kernel⟩⟩
  obtain ⟨s, hbuild, hcolumns⟩ : ∃ s,
      DeclaredSchema.build .postgres .warn [searchedFilm] = .ok s ∧
      s.tables.map (·.columns.map fun c => (c.columnType, c.generated.isSome, c.default)) =
        [[("TEXT", false, some "unnamed"), ("TSVECTOR", true, none)]] := by
    decide +kernel
  have hsound := (DeclaredSchema.build_columnsAreSound .postgres .warn [searchedFilm]).1 s hbuild
  have hmysqlError := (DeclaredSchema.build_columnsAreSound .mysql .warn [searchedFilm]).2
    ⟨searchedFilm, List.mem_singleton_self _, searchedFilm.columns[1], by simp [searchedFilm],
      hmysql⟩
  have hsqliteError := (DeclaredSchema.build_columnsAreSound .sqlite .warn [searchedFilm]).2
    ⟨searchedFilm, List.mem_singleton_self _, searchedFilm.columns[1], by simp [searchedFilm],
      hsqlite⟩
  exact ⟨⟨s, hbuild, hcolumns, hsound⟩, ⟨hmysql, hmysqlError⟩, hsqlite, hsqliteError⟩

end AdditiveSchema
