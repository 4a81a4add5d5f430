import AdditiveSchema.Proofs.Ddl.Search
import AdditiveSchema.Proofs.Text.Splitting
import Mathlib.Data.List.DropRight

/-!
# Lists of columns

The columns of a key are compared with the text that was written for them by cutting the text at its
commas and taking blanks and quotes off the ends of the parts. Doubled quotes are not undone. So a
column is found to be the same just if its name has no comma, no double quote, and no backtick at
either end, and no list is the same as the text for no columns.

## Main definitions

* `IsSimple` : a name that comes out of its quotes as it went in.

## Main results

* `stripped_double_eq_self_iff` : when stripping quotes undoes quoting.
* `sameColumns_quoteList_iff` : which columns are found to be the same.
-/

namespace AdditiveSchema.Reported.Ddl

open AdditiveSchema.Text

/-! ### Quoting -/

section Doubling

variable (mark : Char) (cs : List Char)

theorem head?_double : (double mark cs).head? = cs.head? := by
  cases cs with
  | nil => rfl
  | cons c cs => by_cases hc : c = mark <;> simp [double, hc]

theorem getLast?_double : (double mark cs).getLast? = cs.getLast? := by
  induction cs using List.reverseRecOn with
  | nil => rfl
  | append_singleton cs c => by_cases hc : c = mark <;> simp [double, hc]

theorem length_double : (double mark cs).length = cs.length + cs.count mark := by
  induction cs with
  | nil => rfl
  | cons c cs ih =>
    have hcons : double mark (c :: cs) =
        (if c = mark then [mark, mark] else [c]) ++ double mark cs := rfl
    by_cases hc : c = mark
    · rw [hcons, if_pos hc, hc, List.length_append, ih, List.count_cons_self, List.length_cons]
      simp
      omega
    · rw [hcons, if_neg hc, List.length_append, ih, List.count_cons_of_ne hc, List.length_cons]
      simp
      omega

variable {mark cs}

theorem double_eq_self_iff : double mark cs = cs ↔ mark ∉ cs := by
  constructor
  · intro h
    have hlength := length_double mark cs
    rw [h] at hlength
    exact List.count_eq_zero.mp (by omega)
  · intro hmark
    induction cs with
    | nil => rfl
    | cons c cs ih =>
      rw [List.mem_cons, not_or] at hmark
      have hcons : double mark (c :: cs) = c :: double mark cs := by
        simp [double, Ne.symm hmark.1]
      rw [hcons, ih hmark.2]

theorem count_double {c : Char} (hc : c ≠ mark) : (double mark cs).count c = cs.count c := by
  induction cs with
  | nil => rfl
  | cons c' cs ih =>
    by_cases hc' : c' = mark
    · have hcons : double mark (c' :: cs) = mark :: mark :: double mark cs := by simp [double, hc']
      rw [hcons, List.count_cons_of_ne hc.symm, List.count_cons_of_ne hc.symm, ih, hc',
        List.count_cons_of_ne hc.symm]
    · have hcons : double mark (c' :: cs) = c' :: double mark cs := by simp [double, hc']
      rw [hcons, List.count_cons, List.count_cons, ih]

end Doubling

/-! ### Stripping -/

/-- The text begins and ends with none of the marks. -/
def EndsFree (p : Char → Bool) (cs : List Char) : Prop :=
  (∀ c ∈ cs.head?, p c = false) ∧ ∀ c ∈ cs.getLast?, p c = false

/-- The text without the marks at either end. -/
def stripped (p : Char → Bool) (cs : List Char) : List Char :=
  (cs.dropWhile p).rdropWhile p

theorem endsFree_stripped (p : Char → Bool) (cs : List Char) : EndsFree p (stripped p cs) := by
  obtain ⟨tail, htail⟩ := List.rdropWhile_prefix p (cs.dropWhile p)
  constructor
  · intro c hc
    have hhead := List.head?_dropWhile_not p cs
    have hdrop : (cs.dropWhile p).head? = some c := by
      rw [← htail, List.head?_append, show (List.rdropWhile p _).head? = some c from hc]
      rfl
    rwa [hdrop] at hhead
  · intro c hc
    obtain ⟨hne, rfl⟩ := List.mem_getLast?_eq_getLast hc
    exact Bool.not_eq_true _ ▸ List.rdropWhile_last_not p _ hne

theorem stripped_eq_self_iff {p : Char → Bool} {cs : List Char} :
    stripped p cs = cs ↔ EndsFree p cs := by
  constructor
  · intro h
    rw [← h]
    exact endsFree_stripped p cs
  · rintro ⟨hhead, hlast⟩
    have hdrop : cs.dropWhile p = cs := by
      cases cs with
      | nil => rfl
      | cons c cs => exact List.dropWhile_cons_of_neg (by rw [hhead c rfl]; decide)
    rw [stripped, hdrop, List.rdropWhile_eq_self_iff]
    intro hne
    rw [hlast _ (List.getLast?_eq_some_getLast hne)]
    decide

theorem endsFree_of_forall {p : Char → Bool} {cs : List Char} (h : ∀ c ∈ cs, p c = false) :
    EndsFree p cs :=
  ⟨fun c hc => h c (List.mem_of_mem_head? hc), fun c hc => h c (List.mem_of_mem_getLast? hc)⟩

theorem endsFree_cons_append {p : Char → Bool} {first last : Char} (hfirst : p first = false)
    (hlast : p last = false) (inner : List Char) : EndsFree p (first :: (inner ++ [last])) := by
  refine ⟨fun c hc => ?_, fun c hc => ?_⟩
  · cases hc
    exact hfirst
  · rw [← List.cons_append, List.getLast?_concat] at hc
    cases hc
    exact hlast

theorem stripped_cons_of_mark {p : Char → Bool} {mark : Char} (hmark : p mark = true)
    (cs : List Char) : stripped p (mark :: (cs ++ [mark])) = stripped p cs := by
  rw [stripped, List.dropWhile_cons_of_pos hmark, List.dropWhile_append]
  split
  · rename_i hempty
    rw [stripped, List.isEmpty_iff.mp hempty, List.dropWhile_cons_of_pos hmark]
    rfl
  · rw [List.rdropWhile_concat_pos _ _ _ hmark, stripped]

/-- A double quote or a backtick. -/
def isQuoteMark (c : Char) : Bool :=
  c == '"' || c == '\x60'

theorem endsFree_isQuoteMark_iff {cs : List Char} :
    EndsFree isQuoteMark cs ↔ (cs.head? ≠ some '"' ∧ cs.head? ≠ some '\x60') ∧
      cs.getLast? ≠ some '"' ∧ cs.getLast? ≠ some '\x60' := by
  have hend (o : Option Char) :
      (∀ c ∈ o, isQuoteMark c = false) ↔ o ≠ some '"' ∧ o ≠ some '\x60' := by
    cases o <;> simp [isQuoteMark]
  rw [EndsFree, hend, hend]

/-- **Stripping quotes undoes quoting** just if there is nothing to be doubled and nothing else to
be stripped. -/
theorem stripped_double_eq_self_iff {cs : List Char} :
    stripped isQuoteMark (double '"' cs) = cs ↔ '"' ∉ cs ∧ EndsFree isQuoteMark cs := by
  constructor
  · intro h
    have hends : EndsFree isQuoteMark cs := by
      have hstripped := endsFree_stripped isQuoteMark (double '"' cs)
      rwa [h] at hstripped
    -- doubling keeps both ends, so nothing was stripped from them
    have hself : EndsFree isQuoteMark (double '"' cs) := by
      rwa [EndsFree, head?_double, getLast?_double]
    rw [stripped_eq_self_iff.mpr hself] at h
    exact ⟨double_eq_self_iff.mp h, hends⟩
  · rintro ⟨hquote, hends⟩
    rw [double_eq_self_iff.mpr hquote]
    exact stripped_eq_self_iff.mpr hends

/-! ### Comparing columns -/

/-- The name comes out of a list of columns as it went in, although its quotes are not undoubled: it
has no comma and no double quote, and no backtick at either end. -/
def IsSimple (name : String) : Prop :=
  ',' ∉ name.toList ∧ '"' ∉ name.toList ∧
    name.toList.head? ≠ some '\x60' ∧ name.toList.getLast? ≠ some '\x60'

instance (name : String) : Decidable (IsSimple name) :=
  inferInstanceAs (Decidable (_ ∧ _))

theorem isSimple_iff {name : String} :
    IsSimple name ↔ ',' ∉ name.toList ∧
      stripped isQuoteMark (double '"' name.toList) = name.toList := by
  rw [stripped_double_eq_self_iff, IsSimple, endsFree_isQuoteMark_iff]
  refine and_congr_right fun _ => and_congr_right fun hquote => ?_
  have hhead : name.toList.head? ≠ some '"' := mt List.mem_of_mem_head? hquote
  have hlast : name.toList.getLast? ≠ some '"' := mt List.mem_of_mem_getLast? hquote
  rw [and_iff_right hhead, and_iff_right hlast]

/-- What the comparison makes of one part of a list. -/
def readColumn (part : List Char) : String :=
  String.ofList (stripped isQuoteMark (trim part))

theorem sameColumns_eq_true_iff {body : String} {columns : List String} :
    sameColumns body columns = true ↔ (splitAt ',' body.toList).map readColumn = columns := by
  have hread (part : List Char) :
      strip (fun c => c == '"' || c == '\x60') (trimmed (String.ofList part)) =
        readColumn part := by
    rw [strip, trimmed, String.toList_ofList, String.toList_ofList]
    rfl
  rw [sameColumns, beq_iff_eq, split, List.map_map]
  simp only [Function.comp_def, hread]

theorem readColumn_quote {lead : List Char} (hlead : lead.all isBlank = true) (name : String) :
    readColumn (lead ++ (Dialect.sqlite.quote name).toList) =
      String.ofList (stripped isQuoteMark (double '"' name.toList)) := by
  have htrim : trim (lead ++ (Dialect.sqlite.quote name).toList) =
      (Dialect.sqlite.quote name).toList := by
    change List.rdropWhile isBlank ((lead ++ _).dropWhile isBlank) = _
    rw [List.dropWhile_append_of_pos (List.all_eq_true.mp hlead), Dialect.toList_quote]
    exact stripped_eq_self_iff.mpr (endsFree_cons_append (by decide) (by decide) _)
  rw [readColumn, htrim, Dialect.toList_quote, Dialect.quoteMark_sqlite,
    stripped_cons_of_mark (by decide)]

theorem toList_quoteList_cons_cons (name name' : String) (names : List String) :
    (Dialect.sqlite.quoteList (name :: name' :: names)).toList =
      (Dialect.sqlite.quote name).toList ++ ',' :: ([' '] ++
        (Dialect.sqlite.quoteList (name' :: names)).toList) := by
  simp [Dialect.quoteList]

theorem exists_quoteList_cons (name : String) (names : List String) :
    ∃ inner, (Dialect.sqlite.quoteList (name :: names)).toList = '"' :: (inner ++ ['"']) := by
  induction names generalizing name with
  | nil =>
    rw [Dialect.quoteList, List.map_singleton, String.intercalate_singleton, Dialect.toList_quote]
    exact ⟨_, rfl⟩
  | cons name' names ih =>
    obtain ⟨inner, hinner⟩ := ih name'
    rw [toList_quoteList_cons_cons, hinner, Dialect.toList_quote, Dialect.quoteMark_sqlite]
    exact ⟨double '"' name.toList ++ '"' :: ',' :: ' ' :: '"' :: inner, by simp⟩

/-- There are no blanks at the ends of a list of columns. -/
theorem trimmed_quoteList (names : List String) :
    trimmed (Dialect.sqlite.quoteList names) = Dialect.sqlite.quoteList names := by
  cases names with
  | nil => rfl
  | cons name names =>
    obtain ⟨inner, hinner⟩ := exists_quoteList_cons name names
    have htrim : trim (Dialect.sqlite.quoteList (name :: names)).toList =
        (Dialect.sqlite.quoteList (name :: names)).toList := by
      rw [hinner]
      exact stripped_eq_self_iff.mpr (endsFree_cons_append (by decide) (by decide) inner)
    rw [trimmed, htrim, String.ofList_toList]

theorem count_quote (name : String) :
    (Dialect.sqlite.quote name).toList.count ',' = name.toList.count ',' := by
  rw [Dialect.toList_quote, Dialect.quoteMark_sqlite, List.count_cons_of_ne (by decide),
    List.count_append, count_double (by decide)]
  rfl

/-- Between two quoted names there is one comma. -/
theorem count_quoteList (name : String) (names : List String) :
    (Dialect.sqlite.quoteList (name :: names)).toList.count ',' =
      names.length + ((name :: names).flatMap String.toList).count ',' := by
  induction names generalizing name with
  | nil => simp [Dialect.quoteList, count_quote]
  | cons name' names ih =>
    rw [toList_quoteList_cons_cons, List.count_append, List.count_cons_self,
      List.singleton_append, List.count_cons_of_ne (by decide), ih, count_quote,
      List.flatMap_cons (x := name), List.count_append, List.length_cons]
    omega

/-- Without commas in the names, the parts of the list are the quoted names. -/
theorem splitAt_quoteList {lead : List Char} (hlead : ',' ∉ lead) {name : String}
    {names : List String} (h : ∀ n ∈ name :: names, ',' ∉ n.toList) :
    splitAt ',' (lead ++ (Dialect.sqlite.quoteList (name :: names)).toList) =
      (lead ++ (Dialect.sqlite.quote name).toList) ::
        names.map fun n => [' '] ++ (Dialect.sqlite.quote n).toList := by
  have hquote {lead : List Char} (hlead : ',' ∉ lead) {n : String} (hn : ',' ∉ n.toList) :
      ',' ∉ lead ++ (Dialect.sqlite.quote n).toList := by
    rw [List.mem_append, not_or]
    refine ⟨hlead, List.count_eq_zero.mp ?_⟩
    rw [count_quote]
    exact List.count_eq_zero.mpr hn
  induction names generalizing lead name with
  | nil =>
    rw [List.forall_mem_singleton] at h
    simpa [Dialect.quoteList] using splitAt_of_notMem (hquote hlead h)
  | cons name' names ih =>
    rw [List.forall_mem_cons] at h
    rw [toList_quoteList_cons_cons, ← List.append_assoc, splitAt_append (hquote hlead h.1),
      ih (by decide) h.2, List.map_cons]

/-- Without commas in the names, each part gives a name without the quotes at its ends. -/
theorem map_readColumn_quoteList {name : String} {names : List String}
    (h : ∀ n ∈ name :: names, ',' ∉ n.toList) :
    (splitAt ',' (Dialect.sqlite.quoteList (name :: names)).toList).map readColumn =
      (name :: names).map fun n => String.ofList (stripped isQuoteMark (double '"' n.toList)) := by
  have hparts := splitAt_quoteList List.not_mem_nil h
  have hfirst (n : String) : readColumn ([] ++ (Dialect.sqlite.quote n).toList) =
      String.ofList (stripped isQuoteMark (double '"' n.toList)) :=
    readColumn_quote (by decide) n
  have hothers (n : String) : readColumn ([' '] ++ (Dialect.sqlite.quote n).toList) =
      String.ofList (stripped isQuoteMark (double '"' n.toList)) :=
    readColumn_quote (by decide) n
  rw [List.nil_append] at hparts
  simp only [hparts, List.map_cons, List.map_map, Function.comp_def, hfirst, hothers]

/-- **Which columns are found to be the same** as in the text that was written for them. -/
theorem sameColumns_quoteList_iff {names : List String} :
    sameColumns (Dialect.sqlite.quoteList names) names = true ↔
      names ≠ [] ∧ ∀ name ∈ names, IsSimple name := by
  rw [sameColumns_eq_true_iff]
  cases names with
  | nil => simp [Dialect.quoteList, splitAt]
  | cons name names =>
    constructor
    · intro h
      -- there are as many parts as names, so no name has a comma
      have hlength := congrArg List.length h
      rw [List.length_map, length_splitAt, count_quoteList, List.length_cons] at hlength
      have hcount : ((name :: names).flatMap String.toList).count ',' = 0 := by omega
      have hcomma (n) (hn : n ∈ name :: names) : ',' ∉ n.toList := fun h =>
        List.count_eq_zero.mp hcount (List.mem_flatMap.mpr ⟨n, hn, h⟩)
      rw [map_readColumn_quoteList hcomma] at h
      refine ⟨List.cons_ne_nil _ _, fun n hn => isSimple_iff.mpr ⟨hcomma n hn, ?_⟩⟩
      have hself := List.map_inj_left.mp (h.trans (List.map_id _).symm) n hn
      exact String.ofList_injective (hself.trans String.ofList_toList.symm)
    · rintro ⟨-, hsimple⟩
      rw [map_readColumn_quoteList fun n hn => (hsimple n hn).1]
      refine (List.map_congr_left fun n hn => ?_).trans (List.map_id _)
      rw [(isSimple_iff.mp (hsimple n hn)).2, String.ofList_toList]
      rfl

end AdditiveSchema.Reported.Ddl
