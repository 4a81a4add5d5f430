import AdditiveSchema.Proofs.Generation
import AdditiveSchema.Proofs.NewTables

/-!
# Plans are additive

A statement shows by its first words what it does. Those of a plan create a table that does not
exist, create an index, or add something to a table, whatever is declared and whatever exists.
There is no statement that drops or changes anything.

## Main definitions

* `Statement.CreatesTable`, `Statement.CreatesIndex`, `Statement.AddsTo` : the three forms that
  statements have.
* `Statement.IsAdditive` : a statement has one of these forms, for the item that its action creates.

## Main results

* `Action.isAdditive_of_statements` : the statements of an action.
* `reconcile_additive` : the statements of a plan.
-/

namespace AdditiveSchema

open Reconcile

/-! ### The three forms -/

namespace Dialect

/-- What may stand in front of a new table. -/
def tableWords : Dialect → List String
  | .sqlite => ["CREATE TABLE ", "CREATE VIRTUAL TABLE "]
  | _ => ["CREATE TABLE "]

/-- What may stand between `CREATE` and `INDEX`. -/
def indexWords : Dialect → List String
  | .mysql => ["", "UNIQUE ", "FULLTEXT ", "SPATIAL "]
  | _ => ["", "UNIQUE "]

/-- What may stand between the name of an index and `ON`. -/
def indexMethods : Dialect → List String
  | .mysql => ["", " USING HASH"]
  | _ => [""]

/-- The name of an index. SQLite writes the schema of the table in front. -/
def quoteIndex : Dialect → QualifiedName → String → String
  | .sqlite, table, name => Dialect.sqlite.quoteName ⟨table.schema, name⟩
  | d, _, name => d.quote name

/-- The table of an index. SQLite writes no schema there. -/
def quoteIndexed : Dialect → QualifiedName → String
  | .sqlite, table => Dialect.sqlite.quote table.name
  | d, table => d.quoteName table

end Dialect

namespace Statement

/-- The statement creates the table. -/
def CreatesTable (d : Dialect) (table : QualifiedName) (st : Statement) : Prop :=
  ∃ words ∈ d.tableWords, ∃ rest, st = { sql := words ++ d.quoteName table ++ rest }

/-- The statement creates an index of that name on the table. -/
def CreatesIndex (d : Dialect) (table : QualifiedName) (name : String) (st : Statement) : Prop :=
  ∃ word ∈ d.indexWords, ∃ method ∈ d.indexMethods, ∃ rest,
    st = { sql := "CREATE " ++ word ++ "INDEX " ++ d.quoteIndex table name ++ method ++ " ON " ++
      d.quoteIndexed table ++ rest }

/-- The statement adds something to the table. -/
def AddsTo (d : Dialect) (table : QualifiedName) (st : Statement) : Prop :=
  ∃ rest, st = { sql := "ALTER TABLE " ++ d.quoteName table ++ " ADD " ++ rest }

end Statement

/-- The names that indices of the action may have. A constraint becomes an index of its name where
it cannot be added to an existing table. -/
def Action.indexNames : Action → List String
  | .createTable t => t.indices.map Index.name
  | .createConstraint _ k => [k.name]
  | .createIndex _ i => [i.name]
  | .createColumn _ _ | .addForeignKey _ _ _ => []

/-- The statement creates the table of the action, which does not exist, or an index of the action,
or it adds something to the table of the action. -/
inductive Statement.IsAdditive (d : Dialect) (c : Catalog) (a : Action) (st : Statement) : Prop
  | table (hnew : c.table? a.table = none) (h : st.CreatesTable d a.table)
  | index {name : String} (hname : name ∈ a.indexNames) (h : st.CreatesIndex d a.table name)
  | part (h : st.AddsTo d a.table)

/-! ### What the dialects write -/

namespace Dialect

variable {d : Dialect} {table : QualifiedName} {st : Statement}

theorem clause_mem_indexWords (d : Dialect) (unique : Bool) :
    clause unique "UNIQUE " ∈ d.indexWords := by
  cases d <;> cases unique <;> decide

theorem mem_of_indexForm {i : Index} {word method : String}
    (h : MySql.indexForm i = .ok (word, method)) :
    word ∈ mysql.indexWords ∧ method ∈ mysql.indexMethods := by
  unfold MySql.indexForm at h
  split at h
  · cases h
    exact ⟨clause_mem_indexWords .mysql i.unique, by decide⟩
  · cases h
    exact ⟨clause_mem_indexWords .mysql i.unique, by decide⟩
  · cases h
    decide
  · cases h
    decide
  · cases h

/-- An index gets one statement. -/
theorem createsIndex_of_createIndex {i : Index} (h : d.createIndex table i = .ok st) :
    st.CreatesIndex d table i.name := by
  cases d with
  | postgres =>
    simp only [createIndex, Standard.createIndex] at h
    split at h
    · cases h
    cases h
    refine ⟨_, clause_mem_indexWords .postgres i.unique, "", by decide, ?_⟩
    simp only [String.append_assoc, String.empty_append]
    exact ⟨_, rfl⟩
  | mysql =>
    simp only [createIndex, MySql.createIndex] at h
    split at h
    · cases h
    split at h
    · cases h
    obtain ⟨⟨word, method⟩, hform, h⟩ := Except.bind_eq_ok_iff.mp h
    cases h
    obtain ⟨hword, hmethod⟩ := mem_of_indexForm hform
    refine ⟨word, hword, method, hmethod, ?_⟩
    simp only [String.append_assoc]
    exact ⟨_, rfl⟩
  | sqlite =>
    simp only [createIndex, Sqlite.createIndex] at h
    split at h
    · cases h
    split at h
    · cases h
    cases h
    refine ⟨_, clause_mem_indexWords .sqlite i.unique, "", by decide, ?_⟩
    simp only [Sqlite.indexHead, String.append_assoc, String.empty_append]
    exact ⟨_, rfl⟩

/-- A table gets a statement of its own and then one for each of its indices. -/
theorem exists_of_createTable_eq_ok {t : Table} {statements : List Statement}
    (h : d.createTable t = .ok statements) :
    ∃ st rest, statements = st :: rest ∧ st.CreatesTable d t.qualifiedName ∧
      ∀ st' ∈ rest, ∃ i ∈ t.indices, d.createIndex t.qualifiedName i = .ok st' := by
  by_cases hfull : t.IsFullTextIn d
  · obtain ⟨rfl, hfts5⟩ := hfull
    obtain ⟨options, hoptions⟩ := Option.isSome_iff_exists.mp hfts5
    simp only [createTable, Sqlite.createTable, hoptions] at h
    cases h
    refine ⟨_, [], rfl, ⟨"CREATE VIRTUAL TABLE ", by decide, ?_⟩, List.forall_mem_nil _⟩
    unfold Sqlite.createFullText
    dsimp only
    simp only [String.append_assoc]
    exact ⟨_, rfl⟩
  · rw [createTable_of_not_isFullTextIn hfull] at h
    obtain ⟨-, lines, -, indices, hindices, rfl⟩ := Standard.createTable_eq_ok_iff.mp h
    refine ⟨_, indices, rfl, ⟨"CREATE TABLE ", by cases d <;> decide, ?_⟩,
      Except.exists_of_mapM_eq_ok hindices⟩
    unfold Standard.tableStatement
    simp only [String.append_assoc]
    exact ⟨_, rfl⟩

/-- A column is added to its table. -/
theorem addsTo_of_createColumn {c : Column} (h : d.createColumn table c = .ok st) :
    st.AddsTo d table := by
  have hstandard {d : Dialect}
      (h : Standard.createColumn d (d.columnDefinition table c) table c = .ok st) :
      st.AddsTo d table := by
    obtain ⟨text, -, h⟩ := Except.bind_eq_ok_iff.mp h
    cases h
    simp only [Statement.AddsTo, Standard.alterTable, String.append_assoc]
    exact ⟨_, rfl⟩
  cases d with
  | postgres | mysql => exact hstandard h
  | sqlite =>
    simp only [createColumn, Sqlite.createColumn] at h
    split at h
    · cases h
    split at h
    · cases h
    split at h
    · cases h
    exact hstandard h

/-- A constraint is added to its table, or becomes an index where that cannot be. -/
theorem addsTo_or_createsIndex_of_createConstraint {k : TableConstraint}
    (h : d.createConstraint table k = .ok st) :
    st.AddsTo d table ∨ st.CreatesIndex d table k.name := by
  cases d with
  | postgres | mysql =>
    cases h
    exact Or.inl ⟨_, rfl⟩
  | sqlite =>
    simp only [createConstraint, Sqlite.createConstraint] at h
    split at h
    · cases h
      refine Or.inr ⟨_, clause_mem_indexWords .sqlite true, "", by decide, ?_⟩
      simp only [Sqlite.indexHead, String.append_assoc, String.empty_append]
      exact ⟨_, rfl⟩
    · cases h

/-- A foreign key is added to its table. -/
theorem addsTo_of_addForeignKey {column : String} {fk : ForeignKey}
    (h : d.addForeignKey table column fk = .ok st) : st.AddsTo d table := by
  cases d with
  | postgres | mysql =>
    cases h
    exact ⟨_, rfl⟩
  | sqlite => cases h

end Dialect

/-- **The statements of an action** are additive, if the table that it creates does not exist. -/
theorem Action.isAdditive_of_statements {d : Dialect} {c : Catalog} {a : Action}
    {statements : List Statement} (h : a.statements d = .ok statements)
    (hnew : ∀ t, a = .createTable t → c.table? t.qualifiedName = none) :
    ∀ st ∈ statements, st.IsAdditive d c a := by
  intro st hst
  cases a with
  | createTable t =>
    obtain ⟨first, rest, rfl, hfirst, hrest⟩ := Dialect.exists_of_createTable_eq_ok h
    rcases List.mem_cons.mp hst with rfl | hst
    · exact .table (hnew t rfl) hfirst
    · obtain ⟨i, hi, hstatement⟩ := hrest st hst
      exact .index (List.mem_map_of_mem hi) (Dialect.createsIndex_of_createIndex hstatement)
  | createColumn table column =>
    obtain ⟨st', hst', rfl⟩ := Except.map_eq_ok_iff.mp h
    cases List.mem_singleton.mp hst
    exact .part (Dialect.addsTo_of_createColumn hst')
  | createConstraint table k =>
    obtain ⟨st', hst', rfl⟩ := Except.map_eq_ok_iff.mp h
    cases List.mem_singleton.mp hst
    rcases Dialect.addsTo_or_createsIndex_of_createConstraint hst' with hadds | hcreates
    · exact .part hadds
    · exact .index List.mem_cons_self hcreates
  | createIndex table i =>
    obtain ⟨st', hst', rfl⟩ := Except.map_eq_ok_iff.mp h
    cases List.mem_singleton.mp hst
    exact .index List.mem_cons_self (Dialect.createsIndex_of_createIndex hst')
  | addForeignKey table column fk =>
    obtain ⟨st', hst', rfl⟩ := Except.map_eq_ok_iff.mp h
    cases List.mem_singleton.mp hst
    exact .part (Dialect.addsTo_of_addForeignKey hst')

/-- **Plans are additive.** Whatever is declared and whatever exists, each action of a plan has
statements, and each of them creates a table that does not exist, creates an index, or adds
something to the table of the action. No statement has arguments. -/
theorem reconcile_additive {s : DeclaredSchema} {got : Catalog} {detectDrift : Bool} {p : Plan}
    (h : reconcile got.view s detectDrift = .ok p) {a : Action} (ha : a ∈ p.actions) :
    ∃ statements, a.statements s.dialect = .ok statements ∧
      ∀ st ∈ statements, st.IsAdditive s.dialect got a := by
  have hok : a.isAccepted s.dialect = true := by
    have hall := isOk_statements_of_reconcile h
    rw [Plan.isOk_statements, List.all_eq_true] at hall
    exact hall a ha
  obtain ⟨statements, hstatements⟩ := Except.isOk_iff.mp hok
  refine ⟨statements, hstatements, Action.isAdditive_of_statements hstatements ?_⟩
  rintro t rfl
  exact table?_eq_none_of_createTable_mem h ha

/-- In SQLite, the unique key of the existing films becomes an index, and a full text table is
created beside them. -/
theorem reconcile_additive_filmText :
    let film : Table := { name := "film", columns := [{ name := "title", columnType := "TEXT" }] }
    let filmText : Table := { film with name := "film_text", fts5 := some "" }
    let s : DeclaredSchema := {
      dialect := .sqlite
      tables := [
        { film with constraints := [.unique "title_once" ["title"]] }, filmText] }
    let got := Catalog.ofTables "main" [film]
    ∃ p, reconcile got.view s true = .ok p ∧ p.actions.length = 2 ∧
      ∀ a ∈ p.actions, ∃ statements, a.statements .sqlite = .ok statements ∧
        ∀ st ∈ statements, st.IsAdditive .sqlite got a := by
  intro film filmText s got
  have h : reconcile got.view s true = .ok {
      actions := [.createTable (filmText.resolve "main"),
        .createConstraint ⟨"main", "film"⟩ (.unique "title_once" ["title"])]
      warnings := [] } := by
    decide +kernel
  exact ⟨_, h, rfl, fun a ha => reconcile_additive h ha⟩

end AdditiveSchema
