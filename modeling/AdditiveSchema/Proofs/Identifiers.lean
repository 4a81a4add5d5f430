import AdditiveSchema.Dialect.Identifier
import AdditiveSchema.Proofs.Text.Enclosing
import Mathlib.Logic.Function.Basic

/-!
# Reading identifiers back

An identifier in a statement is read from its opening quote to the first quote that is not doubled.
What is read is the name that was written, and the reading ends where the identifier does, so no
name can end its quotes early. A list of names in parentheses and a name with its schema are
therefore known from what is written for them.

## Main definitions

* `Dialect.readIdentifier?` : the name of an identifier and what stands behind it.

## Main results

* `Dialect.quote_append_inj` : an identifier in front of some other text.
* `Dialect.quoteList_append_inj` : a list of names in parentheses.
* `Dialect.identifiers_areReadBack` : reading identifiers back.
-/

namespace AdditiveSchema.Dialect

variable {d : Dialect} {name name' : String} {names names' : List String} {rest rest' : List Char}

/-- Reads an identifier: a quote, then each doubled quote for one, up to a single quote. -/
def readIdentifier? (d : Dialect) (cs : List Char) : Option (String × List Char) :=
  Text.readEnclosed? d.quoteMark cs

theorem toList_quote (d : Dialect) (name : String) :
    (d.quote name).toList = d.quoteMark :: (Text.double d.quoteMark name.toList ++ [d.quoteMark]) :=
  Text.toList_enclose d.quoteMark name

@[simp] theorem quoteMark_sqlite : Dialect.sqlite.quoteMark = '"' := rfl

/-- **What is read is what was written,** up to a quote that is not doubled. -/
theorem readIdentifier?_eq_some_iff {cs : List Char} :
    d.readIdentifier? cs = some (name, rest) ↔
      cs = (d.quote name).toList ++ rest ∧ rest.head? ≠ some d.quoteMark :=
  Text.readEnclosed?_eq_some_iff

/-- **An identifier in front of some other text** ends where the quotes of its name do. -/
theorem quote_append_inj (hrest : rest.head? ≠ some d.quoteMark)
    (hrest' : rest'.head? ≠ some d.quoteMark)
    (h : (d.quote name).toList ++ rest = (d.quote name').toList ++ rest') :
    name = name' ∧ rest = rest' := by
  have hread := readIdentifier?_eq_some_iff.mpr ⟨h, hrest'⟩
  rw [readIdentifier?_eq_some_iff.mpr ⟨rfl, hrest⟩, Option.some_inj, Prod.mk.injEq] at hread
  exact hread

theorem quote_injective (d : Dialect) : Function.Injective d.quote := by
  intro name name' h
  have hnil : ([] : List Char).head? ≠ some d.quoteMark := nofun
  exact (quote_append_inj hnil hnil (congrArg (fun s => s.toList ++ []) h)).1

/-! ### Lists of names -/

/-- The names of a list behind its first one. -/
def laterNames (d : Dialect) (names : List String) : List Char :=
  names.flatMap fun name => ',' :: ' ' :: (d.quote name).toList

theorem laterNames_cons (d : Dialect) (name : String) (names : List String) :
    d.laterNames (name :: names) = ',' :: ' ' :: ((d.quote name).toList ++ d.laterNames names) := by
  rw [laterNames, List.flatMap_cons, List.cons_append, List.cons_append]
  rfl

theorem toList_quoteList_cons (d : Dialect) (name : String) (names : List String) :
    (d.quoteList (name :: names)).toList = (d.quote name).toList ++ d.laterNames names := by
  induction names generalizing name with
  | nil => rw [quoteList, List.map_singleton, String.intercalate_singleton, laterNames,
      List.flatMap_nil, List.append_nil]
  | cons next names ih =>
    have hcons : d.quoteList (name :: next :: names) =
        d.quote name ++ ", " ++ d.quoteList (next :: names) := String.intercalate_cons_cons
    rw [hcons, String.toList_append, String.toList_append, ih, laterNames_cons, List.append_assoc]
    rfl

theorem quoteMark_ne_close (d : Dialect) : d.quoteMark ≠ ')' := by
  cases d <;> decide

theorem quoteMark_ne_comma (d : Dialect) : d.quoteMark ≠ ',' := by
  cases d <;> decide

theorem quoteMark_ne_point (d : Dialect) : d.quoteMark ≠ '.' := by
  cases d <;> decide

/-- A name in a list is followed by a comma or a parenthesis. -/
theorem head?_laterNames_append (d : Dialect) (names : List String) (rest : List Char) :
    (d.laterNames names ++ ')' :: rest).head? ≠ some d.quoteMark := by
  cases names with
  | nil => exact fun h => d.quoteMark_ne_close (Option.some.inj h).symm
  | cons name names => exact fun h => d.quoteMark_ne_comma (Option.some.inj h).symm

theorem laterNames_append_inj
    (h : d.laterNames names ++ ')' :: rest = d.laterNames names' ++ ')' :: rest') :
    names = names' ∧ rest = rest' := by
  induction names generalizing names' with
  | nil =>
    cases names' with
    | nil => exact ⟨rfl, (List.cons.inj h).2⟩
    | cons name' names' =>
      rw [laterNames_cons] at h
      exact absurd (List.cons.inj h).1 (by decide)
  | cons name names ih =>
    cases names' with
    | nil =>
      rw [laterNames_cons] at h
      exact absurd (List.cons.inj h).1 (by decide)
    | cons name' names' =>
      simp only [laterNames_cons, List.cons_append, List.append_assoc, List.cons.injEq,
        true_and] at h
      obtain ⟨rfl, hlater⟩ :=
        quote_append_inj (d.head?_laterNames_append _ _) (d.head?_laterNames_append _ _) h
      obtain ⟨rfl, hrest⟩ := ih hlater
      exact ⟨rfl, hrest⟩

theorem quoteList_append_ne_close (name : String) (names : List String) (rest rest' : List Char) :
    (d.quoteList (name :: names)).toList ++ rest ≠ ')' :: rest' := by
  rw [toList_quoteList_cons, toList_quote]
  exact fun h => d.quoteMark_ne_close (List.cons.inj h).1

/-- **A list of names in parentheses** ends where its parenthesis closes. -/
theorem quoteList_append_inj
    (h : (d.quoteList names).toList ++ ')' :: rest = (d.quoteList names').toList ++ ')' :: rest') :
    names = names' ∧ rest = rest' := by
  cases names with
  | nil =>
    cases names' with
    | nil => exact ⟨rfl, (List.cons.inj h).2⟩
    | cons name' names' => exact absurd h.symm (quoteList_append_ne_close _ _ _ _)
  | cons name names =>
    cases names' with
    | nil => exact absurd h (quoteList_append_ne_close _ _ _ _)
    | cons name' names' =>
      rw [toList_quoteList_cons, toList_quoteList_cons, List.append_assoc, List.append_assoc] at h
      obtain ⟨rfl, hlater⟩ :=
        quote_append_inj (d.head?_laterNames_append _ _) (d.head?_laterNames_append _ _) h
      obtain ⟨rfl, hrest⟩ := laterNames_append_inj hlater
      exact ⟨rfl, hrest⟩

theorem quoteList_injective (d : Dialect) : Function.Injective d.quoteList := by
  intro names names' h
  exact (quoteList_append_inj (congrArg (fun s => s.toList ++ [')']) h)).1

/-! ### Names with their schema -/

theorem toList_quoteName_of_schema {n : QualifiedName} (h : n.schema ≠ "") :
    (d.quoteName n).toList = (d.quote n.schema).toList ++ '.' :: (d.quote n.name).toList := by
  rw [quoteName, if_neg (by rwa [String.isEmpty_iff]), String.toList_append, String.toList_append,
    List.append_assoc]
  rfl

theorem toList_quoteName_of_not_schema {n : QualifiedName} (h : n.schema = "") :
    (d.quoteName n).toList = (d.quote n.name).toList ++ [] := by
  rw [quoteName, if_pos (String.isEmpty_iff.mpr h), List.append_nil]

/-- Behind the name of a schema there is a point, and nothing behind other names. -/
theorem quoteName_injective (d : Dialect) : Function.Injective d.quoteName := by
  have hpoint (cs : List Char) : ('.' :: cs).head? ≠ some d.quoteMark :=
    fun h => d.quoteMark_ne_point (Option.some.inj h).symm
  have hnil : ([] : List Char).head? ≠ some d.quoteMark := nofun
  rintro ⟨schema, name⟩ ⟨schema', name'⟩ h
  have htext := congrArg String.toList h
  by_cases hschema : schema = "" <;> by_cases hschema' : schema' = ""
  · rw [toList_quoteName_of_not_schema hschema, toList_quoteName_of_not_schema hschema'] at htext
    obtain ⟨hname, -⟩ := quote_append_inj hnil hnil htext
    exact congrArg₂ QualifiedName.mk (hschema.trans hschema'.symm) hname
  · rw [toList_quoteName_of_not_schema hschema, toList_quoteName_of_schema hschema'] at htext
    cases (quote_append_inj hnil (hpoint _) htext).2
  · rw [toList_quoteName_of_schema hschema, toList_quoteName_of_not_schema hschema'] at htext
    cases (quote_append_inj (hpoint _) hnil htext).2
  · rw [toList_quoteName_of_schema hschema, toList_quoteName_of_schema hschema'] at htext
    obtain ⟨hschemas, hnames⟩ := quote_append_inj (hpoint _) (hpoint _) htext
    have hname := d.quote_injective (String.toList_inj.mp (List.cons.inj hnames).2)
    exact congrArg₂ QualifiedName.mk hschemas hname

/-- **Reading identifiers back.** From a text that begins with an identifier, and does not go on
with one more quote, its name is read and what stands behind it is left, and from no other text is a
name read. Lists of names that are written alike are the same, and so are names with their
schema. -/
theorem identifiers_areReadBack (d : Dialect) :
    (∀ (cs : List Char) (name : String) (rest : List Char),
      d.readIdentifier? cs = some (name, rest) ↔
        cs = (d.quote name).toList ++ rest ∧ rest.head? ≠ some d.quoteMark) ∧
    Function.Injective d.quoteList ∧ Function.Injective d.quoteName :=
  ⟨fun _ _ _ => readIdentifier?_eq_some_iff, d.quoteList_injective, d.quoteName_injective⟩

/-- A name that would end its quotes and go on as a statement is read back. -/
theorem identifiers_areReadBack_dropFilm :
    Dialect.postgres.readIdentifier? "\"film\"\"; DROP TABLE \"\"film\" (\"title\")".toList =
      some ("film\"; DROP TABLE \"film", " (\"title\")".toList) :=
  (Dialect.postgres.identifiers_areReadBack.1 _ _ _).mpr ⟨by decide, by decide⟩

end AdditiveSchema.Dialect
