import AdditiveSchema.Dialect.Statement
import AdditiveSchema.Except
import AdditiveSchema.Proofs.DeclaredItems
import AdditiveSchema.Proofs.Text.Splitting

/-!
# Generated names

An index that is given no name by its own text is named after its table and the columns that it was
declared on, and the constraint behind a foreign key after its table and its column. The names are
put in a row with underscores between them. As names may hold underscores themselves, one row can
stand for several: an index of `film` on `actor_id` and one of `film_actor` on `id` have the same
name. Two generated names are the same just if the names in them, cut at their underscores, give the
same words.

## Main definitions

* `SameWords` : two rows of names give the same words.
* `TableDef.Generates` : the definition declares an index on columns and leaves its name open.
* `TableDef.Labels` : the definition declares an index and gives its name.

## Main results

* `sameWords_iff_eq` : without underscores, the same words are the same names.
* `TableDef.mem_indicesIn_iff_generates_or_labels` : the indices of a definition.
* `DeclaredSchema.build_generatedNames_iff` : when generated names are the same.
-/

namespace AdditiveSchema

open Declared

/-- The names of the two rows, cut at their underscores, give the same words. -/
def SameWords (row row' : List String) : Prop :=
  row.flatMap (Text.split '_') = row'.flatMap (Text.split '_')

instance (row row' : List String) : Decidable (SameWords row row') :=
  inferInstanceAs (Decidable (_ = _))

/-- Without underscores, a name is one word. -/
theorem sameWords_iff_eq {row row' : List String} (h : ∀ name ∈ row, '_' ∉ name.toList)
    (h' : ∀ name ∈ row', '_' ∉ name.toList) : SameWords row row' ↔ row = row' := by
  have hwords {names : List String} (h : ∀ name ∈ names, '_' ∉ name.toList) :
      names.flatMap (Text.split '_') = names := by
    rw [List.flatMap_congr fun name hname => Text.split_of_notMem (h name hname)]
    exact List.flatMap_singleton' names
  rw [SameWords, hwords h, hwords h']

/-- **Names in a row,** with an underscore behind each but the last, are the same text just if they
give the same words. -/
theorem generated_eq_iff {table table' : String} {columns columns' : List String}
    (h : columns ≠ []) (h' : columns' ≠ []) (suffix : String) :
    table ++ "_" ++ "_".intercalate columns ++ suffix =
        table' ++ "_" ++ "_".intercalate columns' ++ suffix ↔
      SameWords (table :: columns) (table' :: columns') := by
  have hrow {table : String} {columns : List String} (h : columns ≠ []) :
      table ++ "_" ++ "_".intercalate columns =
        (String.singleton '_').intercalate (table :: columns) :=
    (String.intercalate_cons_of_ne_nil h).symm
  rw [String.append_left_inj, hrow h, hrow h', ← Text.split_inj '_',
    Text.split_intercalate '_' (List.cons_ne_nil _ _),
    Text.split_intercalate '_' (List.cons_ne_nil _ _), SameWords]

/-- **Names of foreign keys** are the same just if the names of table and column give the same
words. -/
theorem foreignKeyName_eq_iff {table column table' column' : String} :
    foreignKeyName table column = foreignKeyName table' column' ↔
      SameWords [table, column] [table', column'] :=
  generated_eq_iff (List.cons_ne_nil column []) (List.cons_ne_nil column' []) "_fkey"

/-! ### Indices with and without a name -/

namespace TableDef

variable (declared : TableDef) (d : Dialect)

/-- The texts of the indices that the table itself declares, and of those that the dialect adds. -/
def indexTextsIn : List String :=
  (declared.modifiers.filter (·.name == "index")).map (·.value) ++
    (declared.customizationIn d).indices.map bareIndex

/-- The name that the text of an index gives to it. -/
def textLabel? (text : String) : Option String :=
  (Directive.valueAndModifiers text).toOption.bind fun (label, _) => label? label

/-- The definition declares the index on these columns and leaves its name open: by modifiers of
columns, or by a text without a label. -/
inductive Generates : List String → Index → Prop where
  | ofUses {group : List IndexUse} (hgroup : group ∈ groupUses (declared.usesIn d)) :
    Generates ((sortUses group).map (·.column)) (assembleIndex declared.tableName group)
  | ofText {text : String} {i : Index} (htext : text ∈ declared.indexTextsIn d)
    (hlabel : textLabel? text = none) (hi : tableIndex? declared.tableName text = some i) :
    Generates i.columns i

/-- The definition declares the index by a text that gives its name. -/
def Labels (i : Index) : Prop :=
  ∃ text ∈ declared.indexTextsIn d, textLabel? text = some i.name ∧
    tableIndex? declared.tableName text = some i

variable {declared d} {i : Index} {columns : List String}

/-- The texts of the indices declare them. -/
theorem tableIndicesIn_eq :
    declared.tableIndicesIn d =
      (declared.indexTextsIn d).filterMap (tableIndex? declared.tableName) := by
  have hmodifier : modifierIndex? declared.tableName = fun m =>
      if m.name == "index" then tableIndex? declared.tableName m.value else none := rfl
  simp only [tableIndicesIn, indexTextsIn, hmodifier, List.filterMap_append, List.filterMap_map,
    List.filterMap_filter, Function.comp_def]

/-- An index has the name that its text gives, or else the one of its table and its columns. -/
theorem name_of_tableIndex? {table text : String} (h : tableIndex? table text = some i) :
    i.name = (textLabel? text).getD (table ++ "_" ++ "_".intercalate i.columns ++ "_idx") := by
  have hname (names : List String) (i : Index) : (names.foldl Index.addColumn i).name = i.name := by
    induction names generalizing i with
    | nil => rfl
    | cons name names ih => exact ih (i.addColumn name)
  unfold tableIndex? at h
  unfold textLabel?
  split at h
  · rename_i label modifiers hlex
    cases h
    rw [hname, Index.columns_foldl_addColumn, hlex]
    simp only [columns_foldlM_applyTableIndexModifier, List.nil_append]
    rfl
  · cases h

/-- **The indices of a definition** have a generated name or the one that their text gives. -/
theorem mem_indicesIn_iff_generates_or_labels :
    i ∈ declared.indicesIn d ↔
      (∃ columns, declared.Generates d columns i) ∨ declared.Labels d i := by
  rw [mem_indicesIn_iff, tableIndicesIn_eq, List.mem_filterMap]
  constructor
  · rintro (⟨group, hgroup, rfl⟩ | ⟨text, htext, hi⟩)
    · exact Or.inl ⟨_, .ofUses hgroup⟩
    · cases hlabel : textLabel? text with
      | none => exact Or.inl ⟨_, .ofText htext hlabel hi⟩
      | some label =>
        have hname := name_of_tableIndex? hi
        rw [hlabel, Option.getD_some] at hname
        exact Or.inr ⟨text, htext, hname ▸ hlabel, hi⟩
  · rintro (⟨columns, hgenerates⟩ | ⟨text, htext, -, hi⟩)
    · cases hgenerates with
      | ofUses hgroup => exact Or.inl ⟨_, hgroup, rfl⟩
      | ofText htext _ hi => exact Or.inr ⟨_, htext, hi⟩
    · exact Or.inr ⟨text, htext, hi⟩

namespace Generates

/-- A single use of a column is an index of its own. -/
theorem ofUse {u : IndexUse} (h : declared.usesIn d = [u]) :
    declared.Generates d [u.column] (assembleIndex declared.tableName [u]) := by
  have hgroup : [u] ∈ groupUses (declared.usesIn d) := by
    rw [h]
    exact List.mem_cons_self
  have hsorted : sortUses [u] = [u] := List.mergeSort_singleton u
  have hgenerates := Generates.ofUses hgroup
  rwa [hsorted] at hgenerates

/-- A generated name holds the name of the table and those of the columns. -/
theorem name_eq (h : declared.Generates d columns i) :
    i.name = declared.tableName ++ "_" ++ "_".intercalate columns ++ "_idx" := by
  cases h with
  | ofUses _ => exact name_assembleIndex _ _
  | ofText _ hlabel hi =>
    have hname := name_of_tableIndex? hi
    rwa [hlabel] at hname

/-- An index of a declared table is declared on a column at least. -/
theorem ne_nil {t : Table} (h : declared.Generates d columns i) (ht : declared.Declares d t) :
    columns ≠ [] := by
  cases h with
  | ofUses hgroup =>
    intro hnil
    have hempty := (perm_sortUses _).symm.trans (.of_eq (List.map_eq_nil_iff.mp hnil))
    exact ne_nil_of_mem_groupUses hgroup hempty.eq_nil
  | ofText htext _ hi =>
    refine ht.keyedIndices i ?_
    rw [tableIndicesIn_eq]
    exact List.mem_filterMap.mpr ⟨_, htext, hi⟩

end Generates

end TableDef

/-- **Generated names.** The tables of a declared schema hold the indices of their definitions,
those with a generated name and those whose text gives it, and nothing else. The generated names of
two of them are the same just if their tables and the columns that they were declared on give the
same words, and so are the names of two foreign keys with their tables and columns. In particular,
they are different for different tables or columns whose names hold no underscore. -/
theorem DeclaredSchema.build_generatedNames_iff {d : Dialect} {policy : ModifierPolicy}
    {definitions : List TableDef} {s : DeclaredSchema} (h : build d policy definitions = .ok s) :
    List.Forall₂ (fun declared t => t.qualifiedName = declared.nameIn d ∧ ∀ i, i ∈ t.indices ↔
        (∃ columns, declared.Generates d columns i) ∨ declared.Labels d i)
      (kept d definitions) s.tables ∧
    (∀ declared ∈ kept d definitions, ∀ declared' ∈ kept d definitions, ∀ columns columns' i i',
      declared.Generates d columns i → declared'.Generates d columns' i' →
      (i.name = i'.name ↔
        SameWords (declared.tableName :: columns) (declared'.tableName :: columns'))) ∧
    (∀ table column table' column',
      foreignKeyName table column = foreignKeyName table' column' ↔
        SameWords [table, column] [table', column']) ∧
    ∀ row row' : List String, (∀ name ∈ row, '_' ∉ name.toList) →
      (∀ name ∈ row', '_' ∉ name.toList) → (SameWords row row' ↔ row = row') := by
  have hall := forall₂_declares_of_build h
  refine ⟨hall.imp fun declared t hdeclares => ?_, ?_, fun _ _ _ _ => foreignKeyName_eq_iff,
    fun _ _ => sameWords_iff_eq⟩
  · refine ⟨hdeclares.qualifiedName, fun i => ?_⟩
    rw [hdeclares.indices]
    exact TableDef.mem_indicesIn_iff_generates_or_labels
  · intro declared hdeclared declared' hdeclared' columns columns' i i' hi hi'
    obtain ⟨t, -, ht⟩ := exists_of_forall₂_left hall hdeclared
    obtain ⟨t', -, ht'⟩ := exists_of_forall₂_left hall hdeclared'
    rw [hi.name_eq, hi'.name_eq]
    exact generated_eq_iff (hi.ne_nil ht) (hi'.ne_nil ht') "_idx"

/-- A table with one column, which is indexed. -/
def indexedTable (name column : String) : TableDef where
  name := name
  columns := [{ field := column, kind := .number, directive := "index" }]

/-- The indices of films on their lengths and of actors on their names have different names. -/
theorem DeclaredSchema.build_generatedNames_iff_filmAndActor :
    ∃ s i i', build .postgres .warn [indexedTable "film" "length", indexedTable "actor" "name"] =
        .ok s ∧
      (indexedTable "film" "length").Generates .postgres ["length"] i ∧
      (indexedTable "actor" "name").Generates .postgres ["name"] i' ∧ i.name ≠ i'.name := by
  obtain ⟨s, hbuild⟩ : ∃ s, build .postgres .warn
      [indexedTable "film" "length", indexedTable "actor" "name"] = .ok s :=
    Except.isOk_iff.mp (by decide +kernel)
  have hfilm : (indexedTable "film" "length").usesIn .postgres =
      [{ label := none, column := "length" }] := by decide +kernel
  have hactor : (indexedTable "actor" "name").usesIn .postgres =
      [{ label := none, column := "name" }] := by decide +kernel
  have hkept : kept .postgres [indexedTable "film" "length", indexedTable "actor" "name"] =
      [indexedTable "film" "length", indexedTable "actor" "name"] := by decide
  obtain ⟨-, hindices, -, -⟩ := build_generatedNames_iff hbuild
  rw [hkept] at hindices
  have hnames := hindices _ List.mem_cons_self _ (List.mem_cons_of_mem _ List.mem_cons_self) _ _ _ _
    (.ofUse hfilm) (.ofUse hactor)
  have hfilmName : (indexedTable "film" "length").tableName = "film" := by decide +kernel
  have hactorName : (indexedTable "actor" "name").tableName = "actor" := by decide +kernel
  refine ⟨s, _, _, hbuild, .ofUse hfilm, .ofUse hactor, mt hnames.mp ?_⟩
  rw [hfilmName, hactorName]
  decide

/-- **Names of different tables run into each other.** An index of films on their actors and one of
the actors in films have one name, as do two foreign keys of these columns. The schema is declared
all the same. -/
theorem DeclaredSchema.build_generatesNameTwice_filmActor :
    ∃ s film filmActor i i',
      build .postgres .warn [indexedTable "film" "actor_id", indexedTable "film_actor" "id"] =
        .ok s ∧
      s.tables = [film, filmActor] ∧
      film.qualifiedName = ⟨"", "film"⟩ ∧ film.columns.map (·.name) = ["actor_id"] ∧
      filmActor.qualifiedName = ⟨"", "film_actor"⟩ ∧ filmActor.columns.map (·.name) = ["id"] ∧
      i ∈ film.indices ∧ (indexedTable "film" "actor_id").Generates .postgres ["actor_id"] i ∧
      i' ∈ filmActor.indices ∧ (indexedTable "film_actor" "id").Generates .postgres ["id"] i' ∧
      i.name = i'.name ∧ foreignKeyName "film" "actor_id" = foreignKeyName "film_actor" "id" := by
  obtain ⟨s, hbuild, hlength⟩ : ∃ s,
      build .postgres .warn [indexedTable "film" "actor_id", indexedTable "film_actor" "id"] =
        .ok s ∧ s.tables.length = 2 := by
    decide +kernel
  obtain ⟨film, filmActor, htables⟩ := List.length_eq_two.mp hlength
  have hkept : kept .postgres [indexedTable "film" "actor_id", indexedTable "film_actor" "id"] =
      [indexedTable "film" "actor_id", indexedTable "film_actor" "id"] := by decide
  have hall := forall₂_declares_of_build hbuild
  rw [hkept, htables] at hall
  obtain ⟨hfilm, hrest⟩ := List.forall₂_cons.mp hall
  obtain ⟨hactor, -⟩ := List.forall₂_cons.mp hrest
  have hfilmUses : (indexedTable "film" "actor_id").usesIn .postgres =
      [{ label := none, column := "actor_id" }] := by decide +kernel
  have hactorUses : (indexedTable "film_actor" "id").usesIn .postgres =
      [{ label := none, column := "id" }] := by decide +kernel
  have hi := TableDef.Generates.ofUse hfilmUses
  have hi' := TableDef.Generates.ofUse hactorUses
  refine ⟨s, film, filmActor, _, _, hbuild, htables, ?_, ?_, ?_, ?_, ?_, hi, ?_, hi', ?_, ?_⟩
  · exact hfilm.qualifiedName.trans (by decide +kernel)
  · exact hfilm.columns.trans (by decide +kernel)
  · exact hactor.qualifiedName.trans (by decide +kernel)
  · exact hactor.columns.trans (by decide +kernel)
  · rw [hfilm.indices, TableDef.mem_indicesIn_iff_generates_or_labels]
    exact Or.inl ⟨_, hi⟩
  · rw [hactor.indices, TableDef.mem_indicesIn_iff_generates_or_labels]
    exact Or.inl ⟨_, hi'⟩
  · rw [hi.name_eq, hi'.name_eq]
    decide +kernel
  · decide

end AdditiveSchema
