import AdditiveSchema.Proofs.Additive
import Mathlib.Algebra.BigOperators.Group.List.Basic
import Mathlib.Algebra.GroupWithZero.Nat
import Mathlib.Algebra.Order.BigOperators.Group.List
import Mathlib.Algebra.Order.Group.Nat

/-!
# What the statements of a table hold

A table is created with all it owns: its statement has one entry for each column and then one for
each constraint, each foreign key stands behind the definition of its column or behind the
constraints, and each index gets a statement of its own. Only a full text table of SQLite is
written without its constraints, its indices and its foreign keys. Nothing tells that they are left
out, so the statements hold everything if and only if there was nothing of this kind to begin with.

## Main definitions

* `Dialect.IsColumnEntry` : what is written for a column.
* `Dialect.tableStatement` : the statement of a table with its entries.
* `Dialect.RendersAll` : the statements of a table hold everything that it owns.
* `Table.OwnsOnlyColumns` : there is nothing that a full text table would lose.

## Main results

* `Dialect.columnDefinition_eq` : the foreign key in the definition of a column.
* `Dialect.createTable_rendersAll_iff` : which tables are created with all they own.
-/

namespace AdditiveSchema

open Reconcile

/-! ### Texts in a row -/

namespace Text

/-- The space that texts take in a row, each with a comma and a blank. -/
def width (texts : List String) : Nat :=
  (texts.map fun text => text.length + 2).sum

theorem length_intercalate_comma (texts : List String) :
    (", ".intercalate texts).length = width texts - 2 := by
  induction texts with
  | nil => rfl
  | cons text texts ih =>
    cases texts with
    | nil => simp [width]
    | cons next texts =>
      rw [String.intercalate_cons_cons, String.length_append, String.length_append, ih]
      simp only [width, List.map_cons, List.sum_cons, show ", ".length = 2 from rfl]
      omega

theorem width_append (texts texts' : List String) :
    width (texts ++ texts') = width texts + width texts' := by
  rw [width, List.map_append, List.sum_append]
  rfl

theorem width_map_append {α : Type} (f g : α → String) (as : List α) :
    width (as.map fun a => f a ++ g a) = width (as.map f) + (as.map fun a => (g a).length).sum := by
  rw [width, width, List.map_map, List.map_map, ← List.sum_map_add]
  refine congrArg List.sum (List.map_congr_left fun a _ => ?_)
  simp only [Function.comp_apply, String.length_append]
  omega

/-- Texts of some length at least take some space at least. -/
theorem mul_le_width {texts : List String} {n : Nat} (h : ∀ text ∈ texts, n ≤ text.length) :
    texts.length * (n + 2) ≤ width texts := by
  have hsum := List.card_nsmul_le_sum (texts.map fun text => text.length + 2) (n + 2) fun k hk => by
    obtain ⟨text, htext, rfl⟩ := List.mem_map.mp hk
    exact Nat.add_le_add_right (h text htext) 2
  simpa [width] using hsum

end Text

/-! ### Entries -/

namespace Dialect

variable (d : Dialect) (t : Table)

/-- What is written for a column in front of its foreign key: its definition, but only its name in a
full text table. -/
def columnHead (c : Column) : Except GenerateError String :=
  if t.IsFullTextIn d then .ok c.name
  else d.columnDefinition t.qualifiedName c.withoutReference

/-- The foreign key of a column, where it stands behind the definition. -/
def inlineReference (c : Column) : String :=
  if d.inlinesReferences then clauseOf (fun fk => " " ++ d.referencesClause fk) c.references
  else ""

/-- The entry of a column: its foreign key follows at its end, unless it is an entry of the
table. -/
def IsColumnEntry (c : Column) (entry : String) : Prop :=
  ∃ head, d.columnHead t c = .ok head ∧ entry = head ++ d.inlineReference c

/-- The foreign keys that are entries of the table. -/
def keyEntries : List String :=
  if d.inlinesReferences then []
  else t.columns.filterMap fun c => c.references.map (d.foreignKeyConstraint t.qualifiedName c.name)

/-- The options of a full text table, unless they are blank. -/
def optionEntries (options : String) : List String :=
  if (Text.trimmed options).isEmpty then [] else [Text.trimmed options]

/-- The statement of a table with the entries. Those of a full text table are arguments, in front of
its options. -/
def tableStatement (entries : List String) : Statement :=
  match d, t.fts5 with
  | .sqlite, some options =>
    { sql := "CREATE VIRTUAL TABLE " ++ Dialect.sqlite.quoteName t.qualifiedName ++
        " USING fts5(" ++ ", ".intercalate (entries ++ optionEntries options) ++ ")" }
  | d, _ => Standard.tableStatement d t entries

/-- **The statements hold everything that the table owns.** The first one has the columns, the
constraints and the foreign keys as entries, in this order and with nothing in between, and the
others are those of the indices, one by one. -/
structure RendersAll (statements : List Statement) : Prop where
  table : ∃ columns, List.Forall₂ (d.IsColumnEntry t) t.columns columns ∧
    statements.head? = some (d.tableStatement t
      (columns ++ t.constraints.map d.tableConstraint ++ d.keyEntries t))
  indices : List.Forall₂ (fun i st => d.createIndex t.qualifiedName i = .ok st) t.indices
    statements.tail

end Dialect

/-- The table owns nothing but columns, and these have no foreign keys. -/
structure Table.OwnsOnlyColumns (t : Table) : Prop where
  constraints : t.constraints = []
  indices : t.indices = []
  references : ∀ c ∈ t.columns, c.references = none

namespace Dialect

variable {d : Dialect} {t : Table} {statements : List Statement}

/-! ### Tables in the form that the dialects share -/

theorem bind_pure_append (x : Except GenerateError String) (f : String → String) (last : String) :
    (do return f (← x) ++ last) = (do return f (← x) ++ "").map (· ++ last) := by
  cases x with
  | error e => rfl
  | ok type => exact congrArg Except.ok (by rw [String.append_empty])

/-- **The foreign key in the definition of a column** stands at its end, and the rest is the
definition that the column has without it. -/
theorem columnDefinition_eq (table : QualifiedName) (c : Column) :
    d.columnDefinition table c =
      (d.columnDefinition table c.withoutReference).map (· ++ d.inlineReference c) := by
  cases d with
  | postgres =>
    simp only [columnDefinition, Postgres.columnDefinition, Postgres.dataType,
      Column.withoutReference]
    exact bind_pure_append _ _ _
  | sqlite =>
    simp only [columnDefinition, Sqlite.columnDefinition, Sqlite.dataType, Column.withoutReference]
    exact bind_pure_append _ _ _
  | mysql =>
    have hkept : mysql.columnDefinition table c.withoutReference =
        mysql.columnDefinition table c := rfl
    have hnothing : (fun text => text ++ mysql.inlineReference c) = id :=
      funext fun text => String.append_empty
    rw [hkept, hnothing]
    cases mysql.columnDefinition table c <;> rfl

theorem isColumnEntry_iff (hfull : ¬t.IsFullTextIn d) {c : Column} {entry : String} :
    d.IsColumnEntry t c entry ↔ d.columnDefinition t.qualifiedName c = .ok entry := by
  rw [columnDefinition_eq, Except.map_eq_ok_iff, IsColumnEntry, columnHead, if_neg hfull]
  exact exists_congr fun head => and_congr_right fun _ => eq_comm

theorem tableStatement_of_not_isFullTextIn (hfull : ¬t.IsFullTextIn d) (entries : List String) :
    d.tableStatement t entries = Standard.tableStatement d t entries := by
  unfold tableStatement
  split
  · rename_i options hoptions
    exact absurd ⟨rfl, hoptions ▸ rfl⟩ hfull
  · rfl

/-- **The form that the dialects share** leaves nothing out. -/
theorem rendersAll_of_not_isFullTextIn (hfull : ¬t.IsFullTextIn d)
    (h : d.createTable t = .ok statements) : d.RendersAll t statements := by
  rw [createTable_of_not_isFullTextIn hfull] at h
  obtain ⟨-, lines, hlines, indices, hindices, rfl⟩ := Standard.createTable_eq_ok_iff.mp h
  obtain ⟨columns, hcolumns, hlines⟩ := Except.bind_eq_ok_iff.mp hlines
  cases hlines
  refine ⟨⟨columns, ?_, ?_⟩, Except.forall₂_of_mapM_eq_ok hindices⟩
  · exact (Except.forall₂_of_mapM_eq_ok hcolumns).imp fun c entry => (isColumnEntry_iff hfull).mpr
  · rw [tableStatement_of_not_isFullTextIn hfull]
    rfl

/-! ### Full text tables -/

section FullText

variable {options : String}

theorem tableStatement_of_fts5 (hoptions : t.fts5 = some options) (entries : List String) :
    sqlite.tableStatement t entries =
      { sql := "CREATE VIRTUAL TABLE " ++ Dialect.sqlite.quoteName t.qualifiedName ++
          " USING fts5(" ++ ", ".intercalate (entries ++ optionEntries options) ++ ")" } := by
  simp only [tableStatement, hoptions]

/-- **A full text table** gets one statement, with the names of its columns. -/
theorem createTable_of_fts5 (hoptions : t.fts5 = some options) :
    sqlite.createTable t = .ok [sqlite.tableStatement t (t.columns.map (·.name))] := by
  rw [tableStatement_of_fts5 hoptions, createTable, Sqlite.createTable, hoptions]
  rfl

theorem forall₂_isColumnEntry_iff (hoptions : t.fts5 = some options) {columns : List Column}
    {entries : List String} :
    List.Forall₂ (sqlite.IsColumnEntry t) columns entries ↔
      entries = columns.map fun c => c.name ++ sqlite.inlineReference c := by
  have hentry : sqlite.IsColumnEntry t =
      fun c entry => c.name ++ sqlite.inlineReference c = entry := by
    funext c entry
    rw [IsColumnEntry, columnHead, if_pos ⟨rfl, hoptions ▸ rfl⟩]
    simp [eq_comm]
  rw [hentry, eq_comm, ← List.forall₂_map_left_iff (R := Eq), List.forall₂_eq_eq_eq]

theorem inlineReference_eq_empty_iff {c : Column} :
    sqlite.inlineReference c = "" ↔ c.references = none := by
  cases hfk : c.references with
  | none => simp [inlineReference, hfk, clauseOf]
  | some fk => simp [inlineReference, hfk, clauseOf, inlinesReferences]

theorem length_tableConstraint_pos (k : TableConstraint) : 1 ≤ (d.tableConstraint k).length := by
  simp only [tableConstraint, String.length_append]
  exact Nat.le_add_right_of_le (Nat.le_add_right_of_le (by decide))

/-- What does not make the arguments of a full text table longer is not there. -/
theorem eq_nil_of_length_eq {columns : List Column} {constraints : List TableConstraint}
    {rest : List String}
    (h : (", ".intercalate ((columns.map fun c => c.name ++ sqlite.inlineReference c) ++
        constraints.map sqlite.tableConstraint ++ rest)).length =
      (", ".intercalate (columns.map Column.name ++ rest)).length) :
    constraints = [] ∧ ∀ c ∈ columns, c.references = none := by
  simp only [Text.length_intercalate_comma, Text.width_append, Text.width_map_append] at h
  have hnames := Text.mul_le_width (n := 0) fun text (_ : text ∈ columns.map Column.name) =>
    Nat.zero_le text.length
  have hrest := Text.mul_le_width (n := 0) fun text (_ : text ∈ rest) => Nat.zero_le text.length
  have hconstraints := Text.mul_le_width (n := 1) (List.forall_mem_map.mpr
    fun k (_ : k ∈ constraints) => length_tableConstraint_pos (d := .sqlite) k)
  rw [List.length_map] at hnames hconstraints
  by_cases hnone : columns = [] ∧ rest = []
  · -- then a first constraint would need more space than the separator that it lacks
    obtain ⟨rfl, rfl⟩ := hnone
    have hzero : Text.width [] = 0 := rfl
    simp only [List.map_nil, List.sum_nil, hzero] at h
    exact ⟨List.length_eq_zero_iff.mp (by omega), List.forall_mem_nil _⟩
  · have hsome : columns.length ≠ 0 ∨ rest.length ≠ 0 := by
      simpa only [ne_eq, List.length_eq_zero_iff, ← not_and_or] using hnone
    have hreferences : (columns.map fun c => (sqlite.inlineReference c).length).sum = 0 := by omega
    refine ⟨List.length_eq_zero_iff.mp (by omega), fun c hc => ?_⟩
    have hlength := List.sum_eq_zero_iff.mp hreferences _ (List.mem_map_of_mem hc)
    exact inlineReference_eq_empty_iff.mp (String.length_eq_zero_iff.mp hlength)

/-- **A full text table** is created with all it owns just if this is nothing but columns. -/
theorem rendersAll_iff_of_fts5 (hoptions : t.fts5 = some options) :
    sqlite.RendersAll t [sqlite.tableStatement t (t.columns.map (·.name))] ↔
      t.OwnsOnlyColumns := by
  constructor
  · rintro ⟨⟨entries, hentries, hfirst⟩, hindices⟩
    rw [forall₂_isColumnEntry_iff hoptions] at hentries
    subst hentries
    have htext := congrArg Statement.sql (Option.some.inj hfirst)
    rw [tableStatement_of_fts5 hoptions, tableStatement_of_fts5 hoptions] at htext
    have hlength := congrArg String.length htext
    have hkeys : sqlite.keyEntries t = [] := rfl
    simp only [hkeys, List.append_nil, String.length_append, Nat.add_right_cancel_iff,
      Nat.add_left_cancel_iff] at hlength
    obtain ⟨hconstraints, hreferences⟩ := eq_nil_of_length_eq hlength.symm
    exact ⟨hconstraints, List.forall₂_nil_right_iff.mp hindices, hreferences⟩
  · rintro ⟨hconstraints, hindices, hreferences⟩
    refine ⟨⟨t.columns.map (·.name), ?_, ?_⟩, ?_⟩
    · rw [forall₂_isColumnEntry_iff hoptions]
      refine List.map_congr_left fun c hc => ?_
      rw [inlineReference_eq_empty_iff.mpr (hreferences c hc), String.append_empty]
    · rw [hconstraints, List.map_nil, List.append_nil]
      exact congrArg (fun entries => some (sqlite.tableStatement t entries))
        (List.append_nil _).symm
    · rw [hindices]
      exact .nil

end FullText

end Dialect

/-- The statements of an action stand together among those of its plan. -/
theorem Plan.exists_statements_of_mem {d : Dialect} {p : Plan} {all statements : List Statement}
    (hall : p.statements d = .ok all) {a : Action} (ha : a ∈ p.actions)
    (h : a.statements d = .ok statements) :
    ∃ before after, all = before ++ statements ++ after := by
  obtain ⟨blocks, hblocks, rfl⟩ := Except.map_eq_ok_iff.mp hall
  obtain ⟨block, hblock, hstatements⟩ :=
    exists_of_forall₂_left (Except.forall₂_of_mapM_eq_ok hblocks) ha
  cases h.symm.trans hstatements
  obtain ⟨before, after, rfl⟩ := List.append_of_mem hblock
  exact ⟨before.flatten, after.flatten, by simp⟩

/-- **Which tables are created with all they own.** The statements of a table hold everything that
it owns, unless it is a full text table of SQLite. Then they do if and only if it has no
constraints, no indices and no foreign keys; what it has of these is left out, and there is no
error. A plan that creates the table has just these statements for it. -/
theorem Dialect.createTable_rendersAll_iff {d : Dialect} {t : Table} {statements : List Statement}
    (h : d.createTable t = .ok statements) :
    (d.RendersAll t statements ↔ (t.IsFullTextIn d → t.OwnsOnlyColumns)) ∧
      ∀ {s : DeclaredSchema} {got : Catalog} {detectDrift : Bool} {p : Plan}, s.dialect = d →
        reconcile got.view s detectDrift = .ok p → .createTable t ∈ p.actions →
          ∃ before after, p.statements d = .ok (before ++ statements ++ after) := by
  constructor
  · by_cases hfull : t.IsFullTextIn d
    · obtain ⟨rfl, hfts5⟩ := hfull
      obtain ⟨options, hoptions⟩ := Option.isSome_iff_exists.mp hfts5
      cases h.symm.trans (createTable_of_fts5 hoptions)
      rw [rendersAll_iff_of_fts5 hoptions]
      exact ⟨fun hall _ => hall, fun hall => hall ⟨rfl, hfts5⟩⟩
    · exact iff_of_true (rendersAll_of_not_isFullTextIn hfull h) fun hfull' => absurd hfull' hfull
  · rintro s got detectDrift p rfl hplan ht
    obtain ⟨all, hall⟩ := Except.isOk_iff.mp (isOk_statements_of_reconcile hplan)
    obtain ⟨before, after, rfl⟩ := Plan.exists_statements_of_mem hall ht h
    exact ⟨before, after, hall⟩

/-- Films are in a language, and their titles are checked and indexed and stand in a full text
table, too. -/
def filmsAndText : DeclaredSchema where
  dialect := .sqlite
  tables := [
    { name := "film"
      columns := [
        { name := "title", columnType := "TEXT" },
        { name := "language_id", columnType := "INT",
          references := some { table := { name := "language" }, column := "language_id" } }]
      constraints := [.check "film_title_check" "title <> ''"]
      indices := [{ name := "film_title_idx", columns := ["title"], exprs := [""] }] },
    { name := "film_text"
      columns := [{ name := "title", columnType := "TEXT" }]
      fts5 := some "" }]

/-- Both tables are created with all they own. -/
theorem createTable_rendersAll_iff_filmsAndText :
    let got := Catalog.ofTables "main" []
    ∃ p, reconcile got.view filmsAndText true = .ok p ∧ p.created.length = 2 ∧
      ∀ t ∈ p.created, ∃ statements, Dialect.sqlite.createTable t = .ok statements ∧
        Dialect.sqlite.RendersAll t statements ∧
          ∃ before after, p.statements .sqlite = .ok (before ++ statements ++ after) := by
  intro got
  have hplan : reconcile got.view filmsAndText true = .ok {
      actions := (filmsAndText.resolved "main").map .createTable, warnings := [] } := by
    decide +kernel
  refine ⟨_, hplan, rfl, fun t ht => ?_⟩
  have htables : ∀ t ∈ filmsAndText.resolved "main",
      (Dialect.sqlite.createTable t).isOk = true ∧ (t.IsFullTextIn .sqlite →
        t.constraints = [] ∧ t.indices = [] ∧ ∀ c ∈ t.columns, c.references = none) := by
    decide
  obtain ⟨hok, honly⟩ := htables t ht
  obtain ⟨statements, h⟩ := Except.isOk_iff.mp hok
  obtain ⟨hall, hblock⟩ := Dialect.createTable_rendersAll_iff h
  refine ⟨statements, h, hall.mpr fun hfull => ?_, hblock rfl hplan (Plan.mem_created.mp ht)⟩
  obtain ⟨hconstraints, hindices, hreferences⟩ := honly hfull
  exact ⟨hconstraints, hindices, hreferences⟩

/-- The titles in a full text table are checked and indexed. -/
def checkedText : DeclaredSchema where
  dialect := .sqlite
  tables := [
    { name := "film_text"
      columns := [{ name := "title", columnType := "TEXT" }]
      constraints := [.check "film_text_title_check" "title <> ''"]
      indices := [{ name := "film_text_title_idx", columns := ["title"], exprs := [""] }]
      fts5 := some "" }]

/-- **A full text table loses what it owns.** The plan creates it with a constraint and an index,
but has only one statement, without both of them, and no warning. -/
theorem createTable_losesItems_checkedText :
    let got := Catalog.ofTables "main" []
    ∃ p t statements, reconcile got.view checkedText true = .ok p ∧
      p.actions = [.createTable t] ∧ p.warnings = [] ∧
      t.indices.length = 1 ∧ t.constraints.length = 1 ∧
      Dialect.sqlite.createTable t = .ok statements ∧
      p.statements .sqlite = .ok statements ∧
      statements = [{
        sql := "CREATE VIRTUAL TABLE \"main\".\"film_text\" USING fts5(title)" }] ∧
      ¬Dialect.sqlite.RendersAll t statements := by
  intro got
  have hplan : reconcile got.view checkedText true = .ok {
      actions := (checkedText.resolved "main").map .createTable, warnings := [] } := by
    decide +kernel
  refine ⟨_, _, _, hplan, rfl, rfl, rfl, rfl, rfl, rfl, by decide, fun hall => ?_⟩
  cases hall.indices.length_eq

end AdditiveSchema
