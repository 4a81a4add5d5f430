import AdditiveSchema.Proofs.Ddl.Columns
import AdditiveSchema.Proofs.Statement

/-!
# The text of a table

SQLite keeps the statement that created a table, and the names of the constraints are found in it
again. They all are, in order and with their texts, if no other text of the table mentions a
constraint. Where a quoted text does so, the search takes it for a constraint.

## Main definitions

* `TableConstraint.inDdl` : what is to be found of a constraint.
* `Table.IsQuiet` : no constraint is mentioned where none begins.

## Main results

* `namedConstraints_createTable` : the constraints that are found in the text of a table.
-/

namespace AdditiveSchema

open Reported.Ddl Text

/-! ### Constraints in the text -/

namespace TableConstraint

/-- The text of the constraint between its parentheses. -/
def text (k : TableConstraint) : String :=
  match k.kind with
  | .check => k.checkExpr.getD "TRUE"
  | _ => Dialect.sqlite.quoteList k.columns

/-- What is to be found of the constraint. -/
def inDdl (k : TableConstraint) : NamedConstraint where
  name := k.name
  kind := k.kind.sql
  body := trimmed k.text

/-- All kinds of constraints are written alike. -/
theorem tableConstraint_eq (k : TableConstraint) :
    Dialect.sqlite.tableConstraint k = "CONSTRAINT " ++ Dialect.sqlite.quote k.name ++
      (" " ++ k.kind.sql ++ " (" ++ k.text ++ ")") := by
  have hcheck : " CHECK (" = " " ++ "CHECK" ++ " (" := by decide
  unfold Dialect.tableConstraint text
  cases k.kind with
  | primaryKey | unique => rfl
  | check => rw [hcheck]; rfl

theorem toList_tableConstraint (k : TableConstraint) :
    (Dialect.sqlite.tableConstraint k).toList =
      headText k.name.toList k.kind ++ (k.text.toList ++ [')']) := by
  have hword : "CONSTRAINT ".toList = "CONSTRAINT".toList ++ [' '] := by decide
  have hopen : " (".toList = [' ', '('] := by decide
  have hclose : ")".toList = [')'] := by decide
  have hblank : " ".toList = [' '] := by decide
  rw [tableConstraint_eq]
  unfold headText
  generalize "CONSTRAINT".toList = word at hword ⊢
  simp only [String.toList_append, Dialect.toList_quote, Dialect.quoteMark_sqlite, hword, hopen,
    hclose, hblank, List.append_assoc, List.cons_append, List.nil_append]

theorem passes_text {k : TableConstraint}
    (hclosed : k.kind = .check → Closed (k.checkExpr.getD "TRUE").toList) :
    Passes k.text.toList := by
  unfold text
  split
  · rename_i hcheck
    exact (hclosed hcheck).passes
  · exact passes_quoteList k.columns

end TableConstraint

/-- The word that begins a constraint stands before a blank neither in the name of the table nor in
the definition of a column nor in the text of a constraint. -/
structure Table.IsQuiet (t : Table) : Prop where
  name : mentionsConstraint (Dialect.sqlite.quoteName t.qualifiedName).toList = false
  columns : ∀ c ∈ t.columns, ∀ definition,
    Dialect.sqlite.columnDefinition t.qualifiedName c = .ok definition →
      mentionsConstraint definition.toList = false
  constraints : ∀ k ∈ t.constraints, mentionsConstraint k.text.toList = false

theorem Table.isQuiet_iff {t : Table} :
    t.IsQuiet ↔ mentionsConstraint (Dialect.sqlite.quoteName t.qualifiedName).toList = false ∧
      (∀ c ∈ t.columns, ((Dialect.sqlite.columnDefinition t.qualifiedName c).toOption.any
        fun definition => mentionsConstraint definition.toList) = false) ∧
      ∀ k ∈ t.constraints, mentionsConstraint k.text.toList = false := by
  have hcolumn (c : Column) : (∀ definition,
      Dialect.sqlite.columnDefinition t.qualifiedName c = .ok definition →
        mentionsConstraint definition.toList = false) ↔
      ((Dialect.sqlite.columnDefinition t.qualifiedName c).toOption.any
        fun definition => mentionsConstraint definition.toList) = false := by
    cases Dialect.sqlite.columnDefinition t.qualifiedName c <;> simp [Except.toOption]
  simp only [← hcolumn]
  exact ⟨fun h => ⟨h.name, h.columns, h.constraints⟩, fun h => ⟨h.1, h.2.1, h.2.2⟩⟩

instance (t : Table) : Decidable t.IsQuiet :=
  decidable_of_iff _ Table.isQuiet_iff.symm

/-! ### Lines of a table -/

/-- The lines of a table behind the first one, up to the end of its statement. -/
def linesText : List String → List Char
  | [] => ['\n', ')']
  | line :: lines => [',', '\n', ' ', ' ', ' ', ' '] ++ (line.toList ++ linesText lines)

theorem isBorder_linesText (lines : List String) : IsBorder (linesText lines) := by
  cases lines with
  | nil =>
    have hparen : dropBlanks? (linesText []) = some [')'] := rfl
    refine ⟨fun c hc => ?_, fun text hdrop => ?_⟩
    · cases hc
      decide
    · rw [hparen] at hdrop
      cases hdrop
      rfl
  | cons line lines => exact isBorder_cons (by decide) (by decide)

theorem toList_intercalate_lines (line : String) (lines : List String) :
    (",\n".intercalate ((line :: lines).map ("    " ++ ·))).toList ++ ['\n', ')'] =
      [' ', ' ', ' ', ' '] ++ (line.toList ++ linesText lines) := by
  induction lines generalizing line with
  | nil => simp [linesText]
  | cons line' lines ih =>
    have hlines := ih line'
    rw [List.map_cons] at hlines
    rw [List.map_cons, List.map_cons, String.intercalate_cons_cons, String.toList_append,
      List.append_assoc, hlines]
    simp [linesText]

/-- The statement of a table, line by line. -/
theorem toList_tableStatement (t : Table) (line : String) (lines : List String) :
    (Standard.tableStatement .sqlite t (line :: lines)).sql.toList =
      "CREATE TABLE ".toList ++ ((Dialect.sqlite.quoteName t.qualifiedName).toList ++
        ([' ', '(', '\n', ' ', ' ', ' ', ' '] ++ (line.toList ++ linesText lines))) := by
  have hlines := toList_intercalate_lines line lines
  have hopen : " (\n".toList = [' ', '(', '\n'] := by decide
  have hclose : "\n)".toList = ['\n', ')'] := by decide
  unfold Standard.tableStatement
  simp only [String.toList_append, List.append_assoc, hopen, hclose, hlines]
  rfl

theorem namedConstraints_linesText_append {lines lines' : List String}
    (h : ∀ line ∈ lines, mentionsConstraint line.toList = false) :
    namedConstraints (linesText (lines ++ lines')) = namedConstraints (linesText lines') := by
  induction lines with
  | nil => rfl
  | cons line lines ih =>
    rw [List.forall_mem_cons] at h
    rw [List.cons_append, linesText, namedConstraints_append_of_not_isLetter (by decide),
      namedConstraints_append (isBorder_linesText _) h.1, ih h.2]

/-- A constraint is found in its line. The search goes on in its text. -/
theorem namedConstraints_linesText_cons {k : TableConstraint} (hname : k.name ≠ "")
    (hclosed : k.kind = .check → Closed (k.checkExpr.getD "TRUE").toList) (lines : List String) :
    namedConstraints (linesText (Dialect.sqlite.tableConstraint k :: lines)) =
      k.inDdl :: namedConstraints (k.text.toList ++ ')' :: linesText lines) := by
  have hname : k.name.toList ≠ [] := fun h => hname (String.toList_inj.mp h)
  rw [linesText, namedConstraints_append_of_not_isLetter (by decide),
    TableConstraint.toList_tableConstraint, List.append_assoc, List.append_assoc,
    List.singleton_append,
    namedConstraints_headText hname k.kind (TableConstraint.passes_text hclosed),
    String.ofList_toList]
  rfl

/-- Nothing is found in the end of a statement. -/
theorem namedConstraints_linesText_nil : namedConstraints (linesText []) = [] := by
  have hend : namedConstraints (['\n', ')'] ++ []) = namedConstraints [] :=
    namedConstraints_append_of_not_isLetter (by decide)
  rw [namedConstraints] at hend
  exact hend

/-- **All constraints of a table are found** in the lines that are written for them. -/
theorem namedConstraints_linesText {constraints : List TableConstraint}
    (hnames : ∀ k ∈ constraints, k.name ≠ "")
    (hclosed : ∀ k ∈ constraints, k.kind = .check → Closed (k.checkExpr.getD "TRUE").toList)
    (hquiet : ∀ k ∈ constraints, mentionsConstraint k.text.toList = false) :
    namedConstraints (linesText (constraints.map Dialect.sqlite.tableConstraint)) =
      constraints.map TableConstraint.inDdl := by
  induction constraints with
  | nil => exact namedConstraints_linesText_nil
  | cons k constraints ih =>
    rw [List.forall_mem_cons] at hnames hclosed hquiet
    rw [List.map_cons, namedConstraints_linesText_cons hnames.1 hclosed.1,
      namedConstraints_append_close hquiet.1, ih hnames.2 hclosed.2 hquiet.2, List.map_cons]

theorem isBorder_quoteName (n : QualifiedName) (rest : List Char) :
    IsBorder ((Dialect.sqlite.quoteName n).toList ++ rest) := by
  have hquote : ∃ cs, (Dialect.sqlite.quoteName n).toList = '"' :: cs := by
    unfold Dialect.quoteName
    split
    · exact ⟨_, Dialect.toList_quote .sqlite n.name⟩
    · rw [String.toList_append, String.toList_append, Dialect.toList_quote]
      exact ⟨_, rfl⟩
  obtain ⟨cs, hcs⟩ := hquote
  rw [hcs]
  exact isBorder_cons (by decide) (by decide)

/-- Nothing is found in front of the constraints. -/
theorem namedConstraints_tableStatement {t : Table} {definition : String}
    {definitions lines : List String}
    (hname : mentionsConstraint (Dialect.sqlite.quoteName t.qualifiedName).toList = false)
    (hquiet : ∀ line ∈ definition :: definitions, mentionsConstraint line.toList = false) :
    namedConstraints
        (Standard.tableStatement .sqlite t (definition :: definitions ++ lines)).sql.toList =
      namedConstraints (linesText lines) := by
  rw [List.forall_mem_cons] at hquiet
  have hcreate : mentionsConstraint "CREATE TABLE ".toList = false := by decide
  have hopen (rest : List Char) : IsBorder ([' ', '(', '\n', ' ', ' ', ' ', ' '] ++ rest) := by
    refine ⟨fun c hc => ?_, fun text hdrop => ?_⟩
    · cases hc
      decide
    · rw [List.cons_append, List.cons_append, dropBlanks?_space (by decide)] at hdrop
      cases hdrop
      rfl
  rw [List.cons_append, toList_tableStatement,
    namedConstraints_append (isBorder_quoteName _ _) hcreate,
    namedConstraints_append (hopen _) hname, namedConstraints_append_of_not_isLetter (by decide),
    namedConstraints_append (isBorder_linesText _) hquiet.1,
    namedConstraints_linesText_append hquiet.2]

/-- The lines of a table: the definitions of its columns, and then its constraints. -/
theorem exists_lines_of_createTable {t : Table} {statement : Statement} {indices : List Statement}
    (hfull : t.fts5 = none) (h : Dialect.sqlite.createTable t = .ok (statement :: indices)) :
    ∃ definition definitions,
      statement = Standard.tableStatement .sqlite t
        (definition :: definitions ++ t.constraints.map Dialect.sqlite.tableConstraint) ∧
      ∀ line ∈ definition :: definitions,
        ∃ c ∈ t.columns, Dialect.sqlite.columnDefinition t.qualifiedName c = .ok line := by
  have hfullText : ¬ t.IsFullTextIn .sqlite := by simp [Table.IsFullTextIn, hfull]
  rw [Dialect.createTable_of_not_isFullTextIn hfullText] at h
  obtain ⟨hcolumns, lines, hlines, _, -, heq⟩ := Standard.createTable_eq_ok_iff.mp h
  cases heq
  obtain ⟨all, hall, hlines⟩ := Except.bind_eq_ok_iff.mp hlines
  cases hlines
  have hlines := Except.exists_of_mapM_eq_ok hall
  obtain ⟨c, columns, hc⟩ := List.exists_cons_of_ne_nil hcolumns
  rw [hc, List.mapM_cons] at hall
  obtain ⟨definition, -, hrest⟩ := Except.bind_eq_ok_iff.mp hall
  obtain ⟨definitions, -, heq⟩ := Except.bind_eq_ok_iff.mp hrest
  cases heq
  -- foreign keys stand on their columns, so no line follows the constraints
  exact ⟨definition, definitions, congrArg _ (List.append_nil _), hlines⟩

/-- **The constraints that are found in the text of a table.** Let a table that is no full text
table have names for its constraints, and let the quotes and parentheses of its checks be closed. If
the word that begins a constraint stands before a blank nowhere else, all constraints of the table
are found, in order and nothing else, with their names, their kinds and their texts. The columns of
a key are found to be the same if and only if there are some, and none of their names has a comma, a
double quote, or a backtick at one of its ends. -/
theorem namedConstraints_createTable {t : Table} {statement : Statement} {indices : List Statement}
    (hfull : t.fts5 = none)
    (h : Dialect.sqlite.createTable t = .ok (statement :: indices))
    (hnames : ∀ k ∈ t.constraints, k.name ≠ "")
    (hclosed : ∀ k ∈ t.constraints, k.kind = .check → Closed (k.checkExpr.getD "TRUE").toList)
    (hquiet : t.IsQuiet) :
    namedConstraints statement.sql.toList = t.constraints.map TableConstraint.inDdl ∧
      ∀ k ∈ t.constraints, k.kind ≠ .check →
        (sameColumns k.inDdl.body k.columns = true ↔
          k.columns ≠ [] ∧ ∀ name ∈ k.columns, IsSimple name) := by
  constructor
  · obtain ⟨definition, definitions, rfl, hdefinitions⟩ := exists_lines_of_createTable hfull h
    have hquietLines : ∀ line ∈ definition :: definitions,
        mentionsConstraint line.toList = false := by
      intro line hline
      obtain ⟨c, hc, hdefinition⟩ := hdefinitions line hline
      exact hquiet.columns c hc line hdefinition
    rw [namedConstraints_tableStatement hquiet.name hquietLines,
      namedConstraints_linesText hnames hclosed hquiet.constraints]
  · intro k hk hkind
    have hbody : k.inDdl.body = Dialect.sqlite.quoteList k.columns := by
      unfold TableConstraint.inDdl TableConstraint.text
      split
      · contradiction
      · exact trimmed_quoteList k.columns
    rw [hbody, sameColumns_quoteList_iff]

/-- Films with a key over two columns and a check of their titles. -/
def filmChecking (expr : String) : Table where
  name := "film"
  columns := [{ name := "film_id", columnType := "INT" }, { name := "title", columnType := "TEXT" }]
  constraints := [.primaryKey "film_pkey" ["film_id", "title"], .check "film_title_check" expr]

theorem closed_checkExpr_filmChecking {expr : String} (h : Closed expr.toList) :
    ∀ k ∈ (filmChecking expr).constraints, k.kind = .check →
      Closed (k.checkExpr.getD "TRUE").toList := by
  intro k hk hkind
  rcases List.mem_pair.mp hk with rfl | rfl
  · cases hkind
  · exact h

/-- A parenthesis between quotes does not end the check. -/
theorem namedConstraints_createTable_film :
    ∃ statement, Dialect.sqlite.createTable (filmChecking "title <> ')'") = .ok [statement] ∧
      namedConstraints statement.sql.toList = [
        ⟨"film_pkey", "PRIMARY KEY", "\"film_id\", \"title\""⟩,
        ⟨"film_title_check", "CHECK", "title <> ')'"⟩] ∧
      sameColumns "\"film_id\", \"title\"" ["film_id", "title"] = true := by
  have hclosed : Closed ("title <> ".toList ++ ['\'', ')', '\'']) :=
    .append_of_isPlain (by decide)
      (.quoted (Or.inl rfl) (by decide : '\'' ∉ [')']) .nil)
  obtain ⟨statement, h⟩ :
      ∃ statement, Dialect.sqlite.createTable (filmChecking "title <> ')'") = .ok [statement] :=
    ⟨_, rfl⟩
  obtain ⟨hfound, hcolumns⟩ := namedConstraints_createTable rfl h (by decide)
    (closed_checkExpr_filmChecking hclosed) (by decide)
  have hsame := (hcolumns _ List.mem_cons_self (by decide)).mpr (by decide)
  exact ⟨statement, h, hfound.trans (by decide), hsame⟩

/-- A text between quotes that reads like a constraint is taken for one. And a column with a comma
in its name is not found to be the same. -/
theorem namedConstraints_findsQuotedText :
    let t := filmChecking "title <> 'CONSTRAINT \"x\" CHECK (y)'"
    (∀ k ∈ t.constraints, k.name ≠ "") ∧
    (∀ k ∈ t.constraints, k.kind = .check → Closed (k.checkExpr.getD "TRUE").toList) ∧
    (∃ statement, Dialect.sqlite.createTable t = .ok [statement] ∧
      namedConstraints statement.sql.toList =
        t.constraints.map TableConstraint.inDdl ++ [⟨"x", "CHECK", "y"⟩]) ∧
    sameColumns (Dialect.sqlite.quoteList ["last,first"]) ["last,first"] = false := by
  intro t
  have hclosed : Closed ("title <> ".toList ++
      '\'' :: ("CONSTRAINT \"x\" CHECK (y)".toList ++ ['\''])) :=
    .append_of_isPlain (by decide) (.quoted (Or.inl rfl) (by decide) .nil)
  have hchecks : ∀ k ∈ t.constraints, k.kind = .check →
      Closed (k.checkExpr.getD "TRUE").toList := closed_checkExpr_filmChecking hclosed
  let key : TableConstraint := .primaryKey "film_pkey" ["film_id", "title"]
  let check : TableConstraint :=
    .check "film_title_check" "title <> 'CONSTRAINT \"x\" CHECK (y)'"
  let statement := Standard.tableStatement .sqlite t (["\"film_id\" INT", "\"title\" TEXT"] ++
    [Dialect.sqlite.tableConstraint key, Dialect.sqlite.tableConstraint check])
  -- between its quotes, the check reads like the head of another one
  have hcheck : check.text.toList = ['t', 'i', 't', 'l', 'e', ' ', '<', '>', ' ', '\''] ++
      (headText ['x'] .check ++ (['y'] ++ [')', '\''])) := by
    decide
  have hfound (rest : List Char) : namedConstraints (check.text.toList ++ rest) =
      ⟨"x", "CHECK", "y"⟩ :: namedConstraints (['y', ')', '\''] ++ rest) := by
    have hbody : Passes ['y'] := (closed_of_isPlain (by decide)).passes
    rw [hcheck, List.append_assoc, namedConstraints_append_of_not_isLetter (by decide),
      List.append_assoc]
    exact namedConstraints_headText (List.cons_ne_nil 'x' []) .check hbody _
  refine ⟨by decide, hchecks, ⟨statement, rfl, ?_⟩, ?_⟩
  · rw [namedConstraints_tableStatement (by decide) (by decide),
      namedConstraints_linesText_cons (by decide) (hchecks key (by decide)),
      namedConstraints_append_close (by decide),
      namedConstraints_linesText_cons (by decide) (hchecks check (by decide)), hfound,
      namedConstraints_append_of_not_isLetter (by decide)]
    have hend : namedConstraints ([')'] ++ linesText []) = namedConstraints (linesText []) :=
      namedConstraints_append_of_not_isLetter (by decide)
    rw [List.singleton_append, namedConstraints_linesText_nil] at hend
    rw [hend]
    rfl
  · rw [Bool.eq_false_iff, ne_eq, sameColumns_quoteList_iff]
    decide

end AdditiveSchema
