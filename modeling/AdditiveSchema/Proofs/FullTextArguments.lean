import AdditiveSchema.Proofs.TableStatements

/-!
# Arguments of full text tables

The columns of a full text table are the first arguments of its statement. Their names stand there
as they are, without quotes, so only a comma with a space behind it tells one name from the next. A
name that has such a separator in it cannot be told from several names: the statement of its table
is that of another table, whose columns are the parts of the name. Only among tables without such
names does the statement determine the columns.

## Main definitions

* `FullText.cut` : the parts of a text between the separators.
* `FullText.parts` : the parts of arguments in a row.
* `Table.KeepsNamesApart` : a table with columns whose names have no separator in them.

## Main results

* `FullText.intercalate_eq_iff` : arguments that are written alike.
* `Dialect.createTable_fullText_iff` : full text tables that are created alike.
-/

namespace AdditiveSchema

namespace FullText

/-! ### Cutting at separators -/

/-- The parts of a text between the separators of arguments, each a comma and a space. -/
def pieces : List Char → List (List Char)
  | [] => [[]]
  | ',' :: ' ' :: cs => [] :: pieces cs
  | c :: cs => (pieces cs).modifyHead (c :: ·)

/-- The parts of a string between the separators of arguments. -/
def cut (s : String) : List String :=
  (pieces s.toList).map String.ofList

/-- The parts of arguments in a row. Without any argument there is still one part, an empty one. -/
def parts : List String → List String
  | [] => [""]
  | arguments => arguments.flatMap cut

variable {c : Char} {cs piece : List Char}

theorem pieces_cons (h : ¬(c = ',' ∧ cs.head? = some ' ')) :
    pieces (c :: cs) = (pieces cs).modifyHead (c :: ·) := by
  rw [pieces]
  rintro rest rfl rfl
  exact h ⟨rfl, rfl⟩

theorem pieces_ne_nil (cs : List Char) : pieces cs ≠ [] := by
  fun_induction pieces cs with
  | case1 => exact List.cons_ne_nil _ _
  | case2 => exact List.cons_ne_nil _ _
  | case3 c cs _ ih => rwa [ne_eq, List.modifyHead_eq_nil_iff]

/-- A text with a separator in it is cut into what stands before it and what stands behind it. No
separator begins at the end of the first text, because it begins with a comma and ends with a
space. -/
theorem pieces_append_separator (cs rest : List Char) :
    pieces (cs ++ ',' :: ' ' :: rest) = pieces cs ++ pieces rest := by
  fun_induction pieces cs with
  | case1 => rfl
  | case2 cs ih => rw [List.cons_append, List.cons_append, pieces, ih, List.cons_append]
  | case3 c cs hsep ih =>
    have hnot : ¬(c = ',' ∧ (cs ++ ',' :: ' ' :: rest).head? = some ' ') := by
      rintro ⟨hc, hhead⟩
      cases cs with
      | nil => cases hhead
      | cons next cs => exact hsep cs hc (congrArg (· :: cs) (Option.some.inj hhead))
    obtain ⟨first, others, hpieces⟩ := List.exists_cons_of_ne_nil (pieces_ne_nil cs)
    rw [List.cons_append, pieces_cons hnot, ih, hpieces]
    rfl

/-- The pieces with separators between them are the text. -/
theorem intercalate_pieces (cs : List Char) : [',', ' '].intercalate (pieces cs) = cs := by
  fun_induction pieces cs with
  | case1 => rfl
  | case2 cs ih =>
    rw [List.intercalate_cons_of_ne_nil (pieces_ne_nil cs), ih]
    rfl
  | case3 c cs _ ih =>
    obtain ⟨first, others, hpieces⟩ := List.exists_cons_of_ne_nil (pieces_ne_nil cs)
    rw [hpieces] at ih ⊢
    rw [← ih]
    cases others with
    | nil => rfl
    | cons next others =>
      rw [List.modifyHead_cons, List.intercalate_cons_cons, List.intercalate_cons_cons]
      rfl

/-- The text begins as its first piece does. -/
theorem head?_of_pieces {others : List (List Char)} (h : pieces cs = (c :: piece) :: others) :
    cs.head? = some c := by
  rw [← intercalate_pieces cs, h]
  cases others <;> rfl

/-- No piece has a separator in it. -/
theorem holds_of_mem_pieces (h : piece ∈ pieces cs) : Text.holds [',', ' '] piece = false := by
  fun_induction pieces cs generalizing piece with
  | case1 =>
    rw [List.mem_singleton.mp h]
    rfl
  | case2 cs ih =>
    rcases List.mem_cons.mp h with rfl | h
    · rfl
    · exact ih h
  | case3 c cs hsep ih =>
    obtain ⟨first, others, hpieces⟩ := List.exists_cons_of_ne_nil (pieces_ne_nil cs)
    rw [hpieces, List.modifyHead_cons] at h
    rcases List.mem_cons.mp h with rfl | h
    · rw [Text.holds, ih (hpieces ▸ List.mem_cons_self), Bool.or_false, Bool.eq_false_iff]
      intro hlead
      -- then the comma would stand before the space that the text goes on with
      cases first with
      | nil => simp at hlead
      | cons next first =>
        obtain ⟨rfl, rfl⟩ : ',' = c ∧ ' ' = next := by simpa using hlead
        obtain ⟨rest, rfl⟩ := List.head?_eq_some_iff.mp (head?_of_pieces hpieces)
        exact hsep rest rfl rfl
    · exact ih (hpieces ▸ List.mem_cons_of_mem _ h)

/-- A text without separator is one piece. -/
theorem pieces_eq_singleton (h : Text.holds [',', ' '] cs = false) : pieces cs = [cs] := by
  fun_induction pieces cs with
  | case1 => rfl
  | case2 cs _ => cases h
  | case3 c cs _ ih =>
    rw [Text.holds, Bool.or_eq_false_iff] at h
    rw [ih h.2]
    rfl

/-! ### Strings -/

theorem cut_append_separator (s t : String) : cut (s ++ ", " ++ t) = cut s ++ cut t := by
  have htext : (s ++ ", " ++ t).toList = s.toList ++ ',' :: ' ' :: t.toList := by
    rw [String.toList_append, String.toList_append, List.append_assoc]
    rfl
  rw [cut, htext, pieces_append_separator, List.map_append]
  rfl

theorem cut_ne_nil (s : String) : cut s ≠ [] :=
  mt List.map_eq_nil_iff.mp (pieces_ne_nil s.toList)

theorem cut_eq_singleton {s : String} (h : Text.holds [',', ' '] s.toList = false) :
    cut s = [s] := by
  rw [cut, pieces_eq_singleton h, List.map_singleton, String.ofList_toList]

theorem holds_of_mem_cut {s part : String} (h : part ∈ cut s) :
    Text.holds [',', ' '] part.toList = false := by
  obtain ⟨piece, hpiece, rfl⟩ := List.mem_map.mp h
  rw [String.toList_ofList]
  exact holds_of_mem_pieces hpiece

theorem cut_injective : Function.Injective cut := by
  intro s t h
  have hpieces : pieces s.toList = pieces t.toList :=
    (List.map_inj_right fun _ _ => String.ofList_injective).mp h
  rw [← String.toList_inj, ← intercalate_pieces s.toList, hpieces, intercalate_pieces]

theorem parts_cons (argument : String) (arguments : List String) :
    parts (argument :: arguments) = cut argument ++ arguments.flatMap cut :=
  List.flatMap_cons

theorem cut_intercalate (arguments : List String) :
    cut (", ".intercalate arguments) = parts arguments := by
  induction arguments with
  | nil => rfl
  | cons argument arguments ih =>
    cases arguments with
    | nil => rw [String.intercalate_singleton, parts_cons, List.flatMap_nil, List.append_nil]
    | cons next arguments =>
      rw [String.intercalate_cons_cons, cut_append_separator, ih, parts_cons, parts_cons,
        ← List.flatMap_cons]

/-- **Arguments that are written alike** have the same parts. -/
theorem intercalate_eq_iff {arguments arguments' : List String} :
    ", ".intercalate arguments = ", ".intercalate arguments' ↔
      parts arguments = parts arguments' := by
  rw [← cut_intercalate, ← cut_intercalate, cut_injective.eq_iff]

theorem parts_append {arguments : List String} (h : arguments ≠ []) (more : List String) :
    parts (arguments ++ more) = arguments.flatMap cut ++ more.flatMap cut := by
  obtain ⟨argument, arguments, rfl⟩ := List.exists_cons_of_ne_nil h
  rw [List.cons_append, parts_cons, List.flatMap_append, List.flatMap_cons, List.append_assoc]

/-- Arguments without separators in them are their own parts. -/
theorem flatMap_cut_eq_self {arguments : List String}
    (h : ∀ argument ∈ arguments, Text.holds [',', ' '] argument.toList = false) :
    arguments.flatMap cut = arguments := by
  rw [List.flatMap_congr fun argument hargument => cut_eq_singleton (h argument hargument),
    List.flatMap_singleton']

end FullText

/-! ### Tables -/

namespace Table

/-- The table has columns, and the name of none has a comma with a space behind it in it. -/
def KeepsNamesApart (t : Table) : Prop :=
  t.columns ≠ [] ∧ ∀ c ∈ t.columns, Text.holds [',', ' '] c.name.toList = false

/-- The parts of what stands in the statement of a full text table with the options. -/
def fullTextParts (t : Table) (options : String) : List String :=
  FullText.parts (t.columns.map (·.name) ++ Dialect.optionEntries options)

variable {t t' : Table} {options : String}

theorem fullTextParts_eq (h : t.columns ≠ []) :
    t.fullTextParts options = (t.columns.map (·.name)).flatMap FullText.cut ++
      (Dialect.optionEntries options).flatMap FullText.cut :=
  FullText.parts_append (mt List.map_eq_nil_iff.mp h) _

theorem KeepsNamesApart.fullTextParts_eq (h : t.KeepsNamesApart) :
    t.fullTextParts options = t.columns.map (·.name) ++
      (Dialect.optionEntries options).flatMap FullText.cut := by
  rw [Table.fullTextParts_eq h.1, FullText.flatMap_cut_eq_self (List.forall_mem_map.mpr h.2)]

/-- The table with a column for each part of the name of a column. -/
def withNamesCut (t : Table) : Table :=
  { t with columns := ((t.columns.map (·.name)).flatMap FullText.cut).map fun name => { name } }

theorem map_name_columns_withNamesCut (t : Table) :
    t.withNamesCut.columns.map (·.name) = (t.columns.map (·.name)).flatMap FullText.cut := by
  rw [withNamesCut, List.map_map]
  exact List.map_id _

theorem keepsNamesApart_withNamesCut (h : t.columns ≠ []) : t.withNamesCut.KeepsNamesApart := by
  constructor
  · obtain ⟨c, columns, hcolumns⟩ := List.exists_cons_of_ne_nil h
    rw [withNamesCut, hcolumns, List.map_cons, List.flatMap_cons, List.map_append]
    exact List.append_ne_nil_of_left_ne_nil
      (mt List.map_eq_nil_iff.mp (FullText.cut_ne_nil c.name)) _
  · rw [← List.forall_mem_map (f := Column.name)
      (P := fun name => Text.holds [',', ' '] name.toList = false), map_name_columns_withNamesCut]
    intro name hname
    obtain ⟨whole, -, hname⟩ := List.mem_flatMap.mp hname
    exact FullText.holds_of_mem_cut hname

/-- Cutting changes the names just if it has a place to cut. -/
theorem map_name_columns_withNamesCut_eq_iff (h : t.columns ≠ []) :
    t.withNamesCut.columns.map (·.name) = t.columns.map (·.name) ↔ t.KeepsNamesApart := by
  constructor
  · intro hnames
    have hcut := (keepsNamesApart_withNamesCut h).2
    rw [← List.forall_mem_map (f := Column.name)
      (P := fun name => Text.holds [',', ' '] name.toList = false), hnames,
      List.forall_mem_map] at hcut
    exact ⟨h, hcut⟩
  · intro hcut
    rw [map_name_columns_withNamesCut,
      FullText.flatMap_cut_eq_self (List.forall_mem_map.mpr hcut.2)]

theorem fullTextParts_withNamesCut (h : t.columns ≠ []) :
    t.withNamesCut.fullTextParts options = t.fullTextParts options := by
  rw [(keepsNamesApart_withNamesCut h).fullTextParts_eq, map_name_columns_withNamesCut,
    fullTextParts_eq h]

end Table

namespace Dialect

variable {t t' : Table} {options : String}

theorem createTable_fts5_eq_iff (hname : t.qualifiedName = t'.qualifiedName)
    (h : t.fts5 = some options) (h' : t'.fts5 = some options) :
    sqlite.createTable t = sqlite.createTable t' ↔
      t.fullTextParts options = t'.fullTextParts options := by
  rw [createTable_of_fts5 h, createTable_of_fts5 h', tableStatement_of_fts5 h,
    tableStatement_of_fts5 h', hname, Table.fullTextParts, Table.fullTextParts,
    ← FullText.intercalate_eq_iff]
  simp [String.append_left_inj, String.append_right_inj]

/-- **Full text tables that are created alike.** Two tables of one name and with the same options
have the same statement if and only if what stands in it has the same parts. So they have the same
columns if the name of no column has a comma with a space behind it in it. Every other table with
columns has the statement of another one, whose columns are the parts of its names. -/
theorem createTable_fullText_iff (hname : t.qualifiedName = t'.qualifiedName)
    (h : t.fts5 = some options) (h' : t'.fts5 = some options) :
    (sqlite.createTable t = sqlite.createTable t' ↔
      t.fullTextParts options = t'.fullTextParts options) ∧
    (t.KeepsNamesApart → t'.KeepsNamesApart → sqlite.createTable t = sqlite.createTable t' →
      t.columns.map (·.name) = t'.columns.map (·.name)) ∧
    (t.columns ≠ [] → sqlite.createTable t.withNamesCut = sqlite.createTable t ∧
      (t.withNamesCut.columns.map (·.name) = t.columns.map (·.name) ↔ t.KeepsNamesApart)) := by
  refine ⟨createTable_fts5_eq_iff hname h h', fun ht ht' heq => ?_, fun hcolumns => ⟨?_, ?_⟩⟩
  · have hparts := (createTable_fts5_eq_iff hname h h').mp heq
    rw [ht.fullTextParts_eq, ht'.fullTextParts_eq] at hparts
    exact List.append_cancel_right hparts
  · have hsame : t.withNamesCut.qualifiedName = t.qualifiedName := rfl
    exact (createTable_fts5_eq_iff hsame h h).mpr (Table.fullTextParts_withNamesCut hcolumns)
  · exact Table.map_name_columns_withNamesCut_eq_iff hcolumns

end Dialect

/-- A full text table with columns of the names. -/
def filmText (names : List String) : Table where
  schema := "main"
  name := "film_text"
  columns := names.map fun name => { name, columnType := "TEXT" }
  fts5 := some "tokenize='porter'"

/-- The statement of a title and a description tells them from a description and a title, but not
from one column with both names. -/
theorem createTable_fullText_iff_filmText :
    Dialect.sqlite.createTable (filmText ["title", "description"]) ≠
        Dialect.sqlite.createTable (filmText ["description", "title"]) ∧
      Dialect.sqlite.createTable (filmText ["title", "description"]) =
        Dialect.sqlite.createTable (filmText ["title, description"]) := by
  constructor
  · intro h
    have hapart : (filmText ["title", "description"]).KeepsNamesApart := ⟨by decide, by decide⟩
    have hapart' : (filmText ["description", "title"]).KeepsNamesApart := ⟨by decide, by decide⟩
    have hname : (filmText ["title", "description"]).qualifiedName =
        (filmText ["description", "title"]).qualifiedName := rfl
    have hnames := (Dialect.createTable_fullText_iff hname rfl rfl).2.1 hapart hapart' h
    exact absurd hnames (by decide)
  · exact (Dialect.createTable_fullText_iff rfl rfl rfl).1.mpr (by decide)

/-- **The names of columns run into each other.** A full text table with one column is created as
one with two columns. -/
theorem createTable_joinsNames_filmText :
    let t := filmText ["title, description"]
    let t' := filmText ["title", "description"]
    t.qualifiedName = t'.qualifiedName ∧ t.fts5 = t'.fts5 ∧
      Dialect.sqlite.createTable t = .ok [{ sql := "CREATE VIRTUAL TABLE \"main\".\"film_text\" " ++
        "USING fts5(title, description, tokenize='porter')" }] ∧
      Dialect.sqlite.createTable t' = Dialect.sqlite.createTable t ∧
      t.columns.map (·.name) ≠ t'.columns.map (·.name) := by
  decide

end AdditiveSchema
