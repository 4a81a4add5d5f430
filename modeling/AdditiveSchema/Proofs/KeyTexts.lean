import AdditiveSchema.Dialect.Statement
import AdditiveSchema.Except
import AdditiveSchema.Proofs.DeclaredItems
import AdditiveSchema.Proofs.Identifiers

/-!
# The two texts of a key

The keys of an index are held in two lists, the names of columns and the expressions, and at each
position one of the two texts should be there and the other one not. Whatever is declared, the
lists have one length and never hold two texts at one position. But they may hold none: an
expression may be empty, and so may the name of a column. Such a key is written like a column
without a name. So the indices of a table hold their keys as they should just if its definition
gives a text for each key that a column is declared as. The keys that the table itself declares
always have one.

## Main definitions

* `Index.IsParallel` : two lists of one length with one text at each position at most.
* `Index.HoldsKeys` : two lists with exactly one text at each position.
* `TableDef.NamesKeysIn` : what a definition has to see to by itself.

## Main results

* `Index.IsParallel.holdsKeys_iff` : such an index has no key that is a column without a name.
* `TableDef.Declares.holdsKeys_iff` : the indices of one definition.
* `DeclaredSchema.build_holdsKeys_iff` : the indices of a declared schema.
-/

namespace AdditiveSchema

/-! ### The keys of one index -/

namespace Index

/-- The two lists of the index have one length, and at each position one of the texts is empty. -/
def IsParallel (i : Index) : Prop :=
  List.Forall₂ (fun column expr => column = "" ∨ expr = "") i.columns i.exprs

/-- The index has a key, its two lists have one length, and at each position exactly one of the
texts is empty. -/
def HoldsKeys (i : Index) : Prop :=
  i.columns ≠ [] ∧ List.Forall₂ (fun column expr => column = "" ↔ expr ≠ "") i.columns i.exprs

theorem length_keysOf (columns exprs : List String) :
    (keysOf columns exprs).length = columns.length := by
  fun_induction keysOf columns exprs with
  | case1 => rfl
  | case2 column columns ih => rw [List.length_cons, List.length_cons, ih]
  | case3 column columns expr exprs ih => rw [List.length_cons, List.length_cons, ih]

theorem length_keys (i : Index) : i.keys.length = i.columns.length :=
  length_keysOf i.columns i.exprs

theorem exactlyOne_iff_not_mem_keysOf {columns exprs : List String}
    (h : List.Forall₂ (fun column expr => column = "" ∨ expr = "") columns exprs) :
    List.Forall₂ (fun column expr => column = "" ↔ expr ≠ "") columns exprs ↔
      .column "" ∉ keysOf columns exprs := by
  induction h with
  | nil => exact iff_of_true .nil nofun
  | @cons column expr columns exprs hone _ ih =>
    rw [List.forall₂_cons, keysOf, List.mem_cons, not_or, ih]
    refine and_congr_left fun _ => ?_
    by_cases hexpr : expr = ""
    · subst hexpr
      rw [if_pos (by rfl), IndexKey.column.injEq, eq_comm (a := "")]
      simp
    · simp [hexpr, hone.resolve_right hexpr]

/-- **Where a text is missing,** the index has a key that is a column without a name. -/
theorem IsParallel.holdsKeys_iff {i : Index} (h : i.IsParallel) (hne : i.columns ≠ []) :
    i.HoldsKeys ↔ .column "" ∉ i.keys :=
  (and_iff_right hne).trans (exactlyOne_iff_not_mem_keysOf h)

theorem IsParallel.addColumn {i : Index} (h : i.IsParallel) (name : String) :
    (i.addColumn name).IsParallel :=
  List.rel_append h (.cons (Or.inr rfl) .nil)

theorem IsParallel.addExpr {i : Index} (h : i.IsParallel) (text : String) :
    (i.addExpr text).IsParallel :=
  List.rel_append h (.cons (Or.inl rfl) .nil)

end Index

/-- Only a column without a name is written as two quotes around nothing, and no expression is. -/
theorem Dialect.indexKey_eq_quote_empty_iff {d : Dialect} {key : IndexKey} :
    d.indexKey key = d.quote "" ↔ key = .column "" := by
  cases key with
  | column name => rw [Dialect.indexKey, d.quote_injective.eq_iff, IndexKey.column.injEq]
  | expr text =>
    refine iff_of_false (fun h => ?_) nofun
    have hhead := congrArg (fun s : String => s.toList.head?) h
    cases d <;> simp [Dialect.indexKey, Dialect.quote, Text.enclose, Dialect.quoteMark] at hhead

/-! ### The indices of one definition -/

namespace Declared

theorem isParallel_assembleIndex (table : String) (group : List IndexUse) :
    (assembleIndex table group).IsParallel := by
  unfold assembleIndex
  refine List.foldlRecOn (motive := Index.IsParallel) _ _ ?_ fun i hi u _ => ?_
  · split <;> exact .nil
  · unfold addKey
    split
    · exact hi.addExpr _
    · exact hi.addColumn _

/-- The entries of a list are not empty. -/
theorem ne_empty_of_mem_commaList {text name : String} (h : name ∈ Text.commaList text) :
    name ≠ "" := by
  have hname := (List.mem_filter.mp h).2
  simpa [String.isEmpty_iff] using hname

/-- An index of the table is over columns with a name, one after the other. -/
theorem exists_of_tableIndex? {table text : String} {i : Index}
    (h : tableIndex? table text = some i) :
    ∃ (names : List String) (plain : Index), i = names.foldl Index.addColumn plain ∧
      plain.columns = [] ∧ plain.exprs = [] ∧ ∀ name ∈ names, name ≠ "" := by
  unfold tableIndex? at h
  split at h
  · rename_i label modifiers _
    have hplain : ∀ draft, draft = (modifiers.foldlM (applyTableIndexModifier table) {}).value →
        draft.index.columns = [] ∧ draft.index.exprs = [] ∧ ∀ name ∈ draft.columns, name ≠ "" := by
      rintro draft rfl
      refine Checked.value_foldlM_induction (motive := fun draft : IndexDraft =>
        draft.index.columns = [] ∧ draft.index.exprs = [] ∧ ∀ name ∈ draft.columns, name ≠ "")
        ⟨rfl, rfl, nofun⟩ fun draft m hdraft => ?_
      unfold applyTableIndexModifier
      split
      case h_1 => exact ⟨hdraft.1, hdraft.2.1, fun _ => ne_empty_of_mem_commaList⟩
      all_goals exact hdraft
    obtain ⟨hcolumns, hexprs, hnames⟩ := hplain _ rfl
    cases h
    exact ⟨_, _, rfl, hcolumns, hexprs, hnames⟩
  · cases h

theorem isParallel_of_tableIndex? {table text : String} {i : Index}
    (h : tableIndex? table text = some i) : i.IsParallel := by
  obtain ⟨names, plain, rfl, hcolumns, hexprs, -⟩ := exists_of_tableIndex? h
  refine List.foldlRecOn (motive := Index.IsParallel) names _ ?_ fun i hi name _ =>
    hi.addColumn name
  rw [Index.IsParallel, hcolumns, hexprs]
  exact .nil

/-- No key of an index of the table is a column without a name. -/
theorem not_mem_keys_of_tableIndex? {table text : String} {i : Index}
    (h : tableIndex? table text = some i) : .column "" ∉ i.keys := by
  obtain ⟨names, plain, rfl, hcolumns, -, hnames⟩ := exists_of_tableIndex? h
  intro hkey
  have hmem := Index.mem_columns_of_mem_keys hkey
  rw [Index.columns_foldl_addColumn, hcolumns, List.nil_append] at hmem
  exact hnames "" hmem rfl

/-- A use adds a column without a name just if neither its expression nor, where it has none, the
name of its column is a text. -/
theorem IndexUse.key_eq_column_empty_iff {u : IndexUse} :
    u.key = .column "" ↔ u.expr.getD u.column = "" := by
  unfold IndexUse.key
  cases u.expr with
  | none => simp
  | some text => simp [String.isEmpty_iff]

end Declared

namespace TableDef

variable {declared : TableDef} {d : Dialect} {t : Table} {i : Index}

/-- Each key that a column is declared as has a text: its expression, or else the name of the
column. -/
def NamesKeysIn (declared : TableDef) (d : Dialect) : Prop :=
  ∀ u ∈ declared.usesIn d, u.expr.getD u.column ≠ ""

theorem isParallel_of_mem_indicesIn (h : i ∈ declared.indicesIn d) : i.IsParallel := by
  rcases mem_indicesIn_iff.mp h with ⟨group, -, rfl⟩ | h
  · exact Declared.isParallel_assembleIndex _ group
  · obtain ⟨text, htext⟩ := exists_text_of_mem_tableIndicesIn h
    exact Declared.isParallel_of_tableIndex? htext

/-- A key without a text comes from a use without one. -/
theorem namesKeysIn_iff :
    declared.NamesKeysIn d ↔ ∀ i ∈ declared.indicesIn d, .column "" ∉ i.keys := by
  constructor
  · intro hnames i hi hkey
    rcases mem_indicesIn_iff.mp hi with ⟨group, hgroup, rfl⟩ | hi
    · rw [Declared.keys_assembleIndex, List.mem_map] at hkey
      obtain ⟨u, hu, hkey⟩ := hkey
      have hu := Declared.mem_of_mem_groupUses hgroup (List.mem_mergeSort.mp hu)
      exact hnames u hu (Declared.IndexUse.key_eq_column_empty_iff.mp hkey)
    · obtain ⟨text, htext⟩ := exists_text_of_mem_tableIndicesIn hi
      exact Declared.not_mem_keys_of_tableIndex? htext hkey
  · intro hkeys u hu hempty
    obtain ⟨i, hi, hkey⟩ := exists_key_mem_keys hu
    rw [Declared.IndexUse.key_eq_column_empty_iff.mpr hempty] at hkey
    exact hkeys i hi hkey

namespace Declares

/-- Each index of the table has a key. -/
theorem columns_ne_nil (h : declared.Declares d t) (hi : i ∈ t.indices) : i.columns ≠ [] := by
  rcases mem_indicesIn_iff.mp (h.indices ▸ hi) with ⟨group, hgroup, rfl⟩ | hi
  · intro hnil
    have hlength := Index.length_keys (Declared.assembleIndex declared.tableName group)
    rw [hnil, Declared.keys_assembleIndex, List.length_map,
      (Declared.perm_sortUses group).length_eq] at hlength
    exact Declared.ne_nil_of_mem_groupUses hgroup (List.eq_nil_of_length_eq_zero hlength)
  · exact h.keyedIndices i hi

theorem isParallel (h : declared.Declares d t) (hi : i ∈ t.indices) : i.IsParallel :=
  isParallel_of_mem_indicesIn (h.indices ▸ hi)

/-- **The indices of one definition** hold their keys just if it gives a text for each key. -/
theorem holdsKeys_iff (h : declared.Declares d t) :
    (∀ i ∈ t.indices, i.HoldsKeys) ↔ declared.NamesKeysIn d := by
  rw [namesKeysIn_iff, ← h.indices]
  exact forall₂_congr fun i hi => (h.isParallel hi).holdsKeys_iff (h.columns_ne_nil hi)

end Declares

end TableDef

/-! ### The indices of all definitions -/

namespace DeclaredSchema

variable {d : Dialect} {policy : ModifierPolicy} {definitions : List TableDef} {s : DeclaredSchema}

/-- **How the indices of a declared schema hold their keys.** Each index has a key, its two lists
have one length, which is the number of its keys, and there are never two texts at one position.
There is exactly one at each position of an index just if none of its keys is written as two quotes
around nothing. And that is so for all indices of the table of a definition just if each key that a
column of it is declared as has a text: an expression, or else the name of the column. -/
theorem build_holdsKeys_iff (h : build d policy definitions = .ok s) :
    (∀ t ∈ s.tables, ∀ i ∈ t.indices, i.columns ≠ [] ∧ i.columns.length = i.exprs.length ∧
      i.keys.length = i.columns.length ∧ i.IsParallel ∧
      (i.HoldsKeys ↔ ∀ key ∈ i.keys, d.indexKey key ≠ d.quote "")) ∧
    List.Forall₂ (fun declared t => (∀ i ∈ t.indices, i.HoldsKeys) ↔ declared.NamesKeysIn d)
      (kept d definitions) s.tables := by
  have hall := forall₂_declares_of_build h
  constructor
  · intro t ht i hi
    obtain ⟨declared, -, hdeclares⟩ := exists_of_forall₂_right hall ht
    have hne := hdeclares.columns_ne_nil hi
    have hparallel := hdeclares.isParallel hi
    refine ⟨hne, List.Forall₂.length_eq hparallel, i.length_keys, hparallel, ?_⟩
    simp only [hparallel.holdsKeys_iff hne, Dialect.indexKey_eq_quote_empty_iff, ne_eq]
    exact ⟨fun hkey key hmem heq => hkey (heq ▸ hmem), fun hkeys hmem => hkeys _ hmem rfl⟩
  · exact hall.imp fun _ _ => TableDef.Declares.holdsKeys_iff

end DeclaredSchema

/-- A table with one column for a text. -/
def textOf (name directive : String) : TableDef where
  name := name
  columns := [{ field := "text", kind := .string, directive }]

/-- Reviews with an index over an expression, and notes with a column whose name was left empty. -/
def reviewAndNote : List TableDef :=
  [textOf "review" "index=\x7b. expr=\x7blower(text)\x7d\x7d", textOf "note" "name= index"]

/-- The index of reviews holds its key, and that of notes does not. -/
theorem build_holdsKeys_iff_reviewAndNote :
    ∃ s review note, DeclaredSchema.build .postgres .warn reviewAndNote = .ok s ∧
      s.tables = [review, note] ∧
      (∀ i ∈ review.indices, i.HoldsKeys) ∧
      review.indices.map Dialect.postgres.indexKeys = ["(lower(text))"] ∧
      (¬∀ i ∈ note.indices, i.HoldsKeys) ∧
      note.indices.map Dialect.postgres.indexKeys = [Dialect.postgres.quote ""] := by
  obtain ⟨s, hbuild, hkeys⟩ : ∃ s, DeclaredSchema.build .postgres .warn reviewAndNote = .ok s ∧
      s.tables.map (·.indices.map Dialect.postgres.indexKeys) =
        [["(lower(text))"], [Dialect.postgres.quote ""]] := by
    decide +kernel
  obtain ⟨review, rest, htables, hreviewKeys, hrest⟩ := List.map_eq_cons_iff.mp hkeys
  obtain ⟨note, rfl, hnoteKeys⟩ := List.map_eq_singleton_iff.mp hrest
  have hall := (DeclaredSchema.build_holdsKeys_iff hbuild).2
  have hkept : DeclaredSchema.kept .postgres reviewAndNote = reviewAndNote := by decide
  rw [hkept, htables] at hall
  obtain ⟨hreview, hall⟩ := List.forall₂_cons.mp hall
  obtain ⟨hnote, -⟩ := List.forall₂_cons.mp hall
  have hreviewUses : reviewAndNote[0].usesIn .postgres =
      [{ label := none, column := "text", expr := some "lower(text)" }] := by
    decide +kernel
  have hnoteUses : reviewAndNote[1].usesIn .postgres = [{ label := none, column := "" }] := by
    decide +kernel
  refine ⟨s, review, note, hbuild, htables, hreview.mpr fun u hu => ?_, hreviewKeys, fun h => ?_,
    hnoteKeys⟩
  · change u ∈ reviewAndNote[0].usesIn .postgres at hu
    rw [hreviewUses, List.mem_singleton] at hu
    subst hu
    decide
  · have hmem : { label := none, column := "" } ∈ reviewAndNote[1].usesIn .postgres :=
      hnoteUses ▸ List.mem_cons_self
    exact hnote.mp h _ hmem rfl

/-- An expression that was left empty is held, and written, like a column without a name. -/
theorem build_losesExpression_review :
    ∃ s review i, DeclaredSchema.build .postgres .warn
        [textOf "review" "index=\x7b. expr=\x7b\x7d\x7d"] = .ok s ∧
      s.tables = [review] ∧ review.indices = [i] ∧ ¬i.HoldsKeys ∧
      Dialect.postgres.indexKeys i = Dialect.postgres.quote "" := by
  obtain ⟨s, hbuild, hindices⟩ : ∃ s, DeclaredSchema.build .postgres .warn
        [textOf "review" "index=\x7b. expr=\x7b\x7d\x7d"] = .ok s ∧
      s.tables.map (·.indices) =
        [[{ name := "review_text_idx", columns := [""], exprs := [""] }]] := by
    decide +kernel
  obtain ⟨review, htables, hreview⟩ := List.map_eq_singleton_iff.mp hindices
  refine ⟨s, review, _, hbuild, htables, hreview, fun h => ?_, by decide +kernel⟩
  exact absurd h (by simp [Index.HoldsKeys])

end AdditiveSchema
