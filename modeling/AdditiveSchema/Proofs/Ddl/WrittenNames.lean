import AdditiveSchema.Proofs.Ddl.Columns
import AdditiveSchema.Proofs.List
import AdditiveSchema.Proofs.Text.Blanks
import AdditiveSchema.Proofs.TypeName.Uppercase
import AdditiveSchema.Reported.Sqlite

/-!
# Lists of columns in all styles

The text of a table is kept as it was written, so the columns of a key may stand in it in each of
the styles in which the names of constraints are read: as words, between double quotes, between
backticks and between square brackets. The comparison with the columns of the key cuts the text at
its commas and strips blanks and then quotes and backticks off the parts. A word is always found to
be the same, a name between brackets never.

## Main definitions

* `NameStyle` : the ways to write a name.
* `WrittenName` : a name in an entry of a list.
* `WrittenName.IsKept` : a name that the comparison reads off its entry.

## Main results

* `readName?_eq_some_iff` : the styles are those in which names are read.
* `WrittenName.entries_eq_name_iff` : what is read off an entry.
* `sameColumns_written_iff` : which lists are found to be the same.
-/

namespace AdditiveSchema.Reported.Ddl

open AdditiveSchema.Text

/-! ### Styles -/

/-- The ways to write a name. -/
inductive NameStyle where
  /-- As a word. -/
  | bare
  /-- Between double quotes, with each one inside written twice. -/
  | quoted
  /-- Between backticks. -/
  | backticked
  /-- Between square brackets. -/
  | bracketed
  deriving DecidableEq, Repr

namespace NameStyle

/-- The name can be written in the style. No name is empty. -/
def Allows (style : NameStyle) (name : List Char) : Prop :=
  name ≠ [] ∧ match style with
    | bare => ∀ c ∈ name, isWord c = true
    | quoted => True
    | backticked => '\x60' ∉ name
    | bracketed => ']' ∉ name

/-- The name as it is written. -/
def write : NameStyle → List Char → List Char
  | bare, name => name
  | quoted, name => '"' :: (double '"' name ++ ['"'])
  | backticked, name => '\x60' :: (name ++ ['\x60'])
  | bracketed, name => '[' :: (name ++ [']'])

end NameStyle

variable {cs name : List Char}

theorem splitFirst?_eq_some_nil_iff {mark : Char} :
    splitFirst? mark cs = some (name, []) ↔ cs = name ++ [mark] ∧ mark ∉ name := by
  constructor
  · intro h
    fun_induction splitFirst? mark cs generalizing name with
    | case1 => cases h
    | case2 => simp_all
    | case3 c cs hc ih =>
      obtain ⟨⟨before, behind⟩, hbefore, heq⟩ := Option.map_eq_some_iff.mp h
      cases heq
      obtain ⟨rfl, hmark⟩ := ih hbefore
      exact ⟨rfl, List.not_mem_cons_of_ne_of_not_mem (Ne.symm hc) hmark⟩
  · rintro ⟨rfl, hmark⟩
    exact splitFirst?_append hmark []

theorem readQuoted?_eq_some_nil_iff :
    readQuoted? cs = some (name, []) ↔ cs = double '"' name ++ ['"'] := by
  rw [readQuoted?_eq_readInner?]
  exact ⟨fun h => (eq_double_of_readInner? h).1, fun h => h ▸ readInner?_double (by simp) name⟩

/-- No blank is in a word. -/
theorem isBlank_eq_false_of_isWord {c : Char} (h : isWord c = true) : isBlank c = false := by
  have hstops : ∀ n ∈ TypeName.stopCodes, isWord (Char.ofNat n) = false := by decide +kernel
  have hword : TypeName.isWordChar c = true := by
    rw [TypeName.isWordChar_iff_notMem]
    intro hmem
    have hstop := hstops _ hmem
    rw [Char.ofNat_toNat, h] at hstop
    cases hstop
  exact (TypeName.isWordChar_eq_true_iff.mp hword).1

/-- **The styles are those in which names are read.** -/
theorem readName?_eq_some_iff :
    readName? cs = some (name, []) ↔
      ∃ style : NameStyle, style.Allows name ∧ cs = style.write name := by
  constructor
  · intro h
    rw [readName?.eq_def, Option.filter_eq_some_iff] at h
    obtain ⟨hread, hne⟩ := h
    have hne : name ≠ [] := by simpa using hne
    split at hread
    · exact ⟨.quoted, ⟨hne, trivial⟩, congrArg _ (readQuoted?_eq_some_nil_iff.mp hread)⟩
    · obtain ⟨heq, hmark⟩ := splitFirst?_eq_some_nil_iff.mp hread
      exact ⟨.backticked, ⟨hne, hmark⟩, congrArg _ heq⟩
    · obtain ⟨heq, hmark⟩ := splitFirst?_eq_some_nil_iff.mp hread
      exact ⟨.bracketed, ⟨hne, hmark⟩, congrArg _ heq⟩
    · obtain ⟨rfl, hrest⟩ := Prod.mk.inj (Option.some.inj hread)
      have hwords := List.dropWhile_eq_nil_iff.mp hrest
      have hself : cs.takeWhile isWord = cs := List.takeWhile_eq_self_iff.mpr hwords
      exact ⟨.bare, ⟨hne, hself.symm ▸ hwords⟩, hself.symm⟩
  · rintro ⟨style, ⟨hne, hallowed⟩, rfl⟩
    rw [readName?.eq_def, Option.filter_eq_some_iff]
    refine ⟨?_, by simpa using hne⟩
    cases style with
    | bare =>
      have hself : name.takeWhile isWord = name := List.takeWhile_eq_self_iff.mpr hallowed
      have hrest : name.dropWhile isWord = [] := List.dropWhile_eq_nil_iff.mpr hallowed
      rw [NameStyle.write]
      split
      · exact absurd (hallowed _ List.mem_cons_self) (by decide)
      · exact absurd (hallowed _ List.mem_cons_self) (by decide)
      · exact absurd (hallowed _ List.mem_cons_self) (by decide)
      · rw [hself, hrest]
    | quoted => exact readQuoted?_eq_some_nil_iff.mpr rfl
    | backticked => exact splitFirst?_eq_some_nil_iff.mpr ⟨rfl, hallowed⟩
    | bracketed => exact splitFirst?_eq_some_nil_iff.mpr ⟨rfl, hallowed⟩

/-! ### Entries of lists -/

/-- A name as an entry of a list, with blanks around it. -/
structure WrittenName where
  name : String
  style : NameStyle
  /-- The blanks in front. -/
  lead : List Char := []
  /-- The blanks behind. -/
  trail : List Char := []
  allows : style.Allows name.toList
  isBlank_lead : ∀ c ∈ lead, isBlank c = true
  isBlank_trail : ∀ c ∈ trail, isBlank c = true

namespace WrittenName

/-- The text of the entry. -/
def text (w : WrittenName) : String :=
  String.ofList (w.lead ++ (w.style.write w.name.toList ++ w.trail))

/-- The comparison reads the name off its entry, although it does not know of brackets, cuts quoted
texts at their commas and does not undouble quotes. -/
def IsKept (w : WrittenName) : Prop :=
  match w.style with
  | .bare => True
  | .quoted => IsSimple w.name
  | .backticked => ',' ∉ w.name.toList ∧
    w.name.toList.head? ≠ some '"' ∧ w.name.toList.getLast? ≠ some '"'
  | .bracketed => False

/-- What the comparison makes of the entry. -/
def entries (w : WrittenName) : List String :=
  (splitAt ',' w.text.toList).map readColumn

variable (w : WrittenName)

theorem toList_text : w.text.toList = w.lead ++ (w.style.write w.name.toList ++ w.trail) :=
  String.toList_ofList

/-- Neither the blanks nor the signs of a style bring in a comma. -/
theorem comma_mem_text_iff : ',' ∈ w.text.toList ↔ ',' ∈ w.name.toList := by
  have hblank {blanks : List Char} (h : ∀ c ∈ blanks, isBlank c = true) : ',' ∉ blanks :=
    fun hmem => absurd (h ',' hmem) (by decide)
  have hwrite : ',' ∈ w.style.write w.name.toList ↔ ',' ∈ w.name.toList := by
    cases w.style with
    | bare => exact Iff.rfl
    | quoted =>
      have hdouble : ',' ∈ double '"' w.name.toList ↔ ',' ∈ w.name.toList := by
        rw [← List.count_pos_iff, count_double (by decide), List.count_pos_iff]
      simp [NameStyle.write, hdouble]
    | backticked => simp [NameStyle.write]
    | bracketed => simp [NameStyle.write]
  rw [toList_text, List.mem_append, List.mem_append, hwrite]
  simp [hblank w.isBlank_lead, hblank w.isBlank_trail]

/-- No blank stands at an end of what is written. -/
theorem endsFree_write : EndsFree isBlank (w.style.write w.name.toList) := by
  have hallowed := w.allows.2
  cases hstyle : w.style with
  | bare =>
    rw [hstyle] at hallowed
    exact endsFree_of_forall fun c hc => isBlank_eq_false_of_isWord (hallowed c hc)
  | quoted => exact endsFree_cons_append (by decide) (by decide) _
  | backticked => exact endsFree_cons_append (by decide) (by decide) _
  | bracketed => exact endsFree_cons_append (by decide) (by decide) _

theorem write_ne_nil : w.style.write w.name.toList ≠ [] := by
  cases w.style with
  | bare => exact w.allows.1
  | quoted => exact List.cons_ne_nil _ _
  | backticked => exact List.cons_ne_nil _ _
  | bracketed => exact List.cons_ne_nil _ _

theorem trim_text : trim w.text.toList = w.style.write w.name.toList := by
  rw [toList_text]
  exact trim_append w.isBlank_lead w.isBlank_trail w.write_ne_nil w.endsFree_write.1
    w.endsFree_write.2

/-- The entry is its name alone if no comma is in it and only what was written around the name is
stripped. -/
theorem entries_eq_singleton_iff : w.entries = [w.name] ↔
    ',' ∉ w.name.toList ∧ stripped isQuoteMark (w.style.write w.name.toList) = w.name.toList := by
  by_cases hcomma : ',' ∈ w.name.toList
  · refine iff_of_false (fun h => ?_) (fun h => h.1 hcomma)
    have hlength := congrArg List.length h
    have hcount := List.count_pos_iff.mpr (w.comma_mem_text_iff.mpr hcomma)
    rw [entries, List.length_map, length_splitAt, List.length_singleton] at hlength
    omega
  · rw [entries, splitAt_of_notMem (mt w.comma_mem_text_iff.mp hcomma), List.map_singleton,
      readColumn, trim_text, List.singleton_inj, ← String.toList_inj, String.toList_ofList]
    exact (and_iff_right hcomma).symm

/-- **What is read off an entry** is its name just if the name is kept in its style. -/
theorem entries_eq_name_iff : w.entries = [w.name] ↔ w.IsKept := by
  obtain ⟨hne, hallowed⟩ := w.allows
  rw [entries_eq_singleton_iff, IsKept]
  cases hstyle : w.style with
  | bare =>
    rw [hstyle] at hallowed
    have hword {c : Char} (hc : isWord c = false) : c ∉ w.name.toList := fun hmem =>
      Bool.false_ne_true (hc.symm.trans (hallowed c hmem))
    have hquote : '"' ∉ w.name.toList := hword (by decide)
    have htick : '\x60' ∉ w.name.toList := hword (by decide)
    refine iff_of_true ⟨hword (by decide), stripped_eq_self_iff.mpr ?_⟩ trivial
    exact endsFree_isQuoteMark_iff.mpr
      ⟨⟨mt List.mem_of_mem_head? hquote, mt List.mem_of_mem_head? htick⟩,
        mt List.mem_of_mem_getLast? hquote, mt List.mem_of_mem_getLast? htick⟩
  | quoted =>
    rw [NameStyle.write, stripped_cons_of_mark (by decide)]
    exact isSimple_iff.symm
  | backticked =>
    rw [hstyle] at hallowed
    rw [NameStyle.write, stripped_cons_of_mark (by decide), stripped_eq_self_iff,
      endsFree_isQuoteMark_iff]
    have hhead : w.name.toList.head? ≠ some '\x60' := mt List.mem_of_mem_head? hallowed
    have hlast : w.name.toList.getLast? ≠ some '\x60' := mt List.mem_of_mem_getLast? hallowed
    rw [and_iff_left hhead, and_iff_left hlast]
  | bracketed =>
    refine iff_of_false (fun h => ?_) id
    have hself : stripped isQuoteMark ('[' :: (w.name.toList ++ [']'])) =
        '[' :: (w.name.toList ++ [']']) :=
      stripped_eq_self_iff.mpr (endsFree_cons_append (by decide) (by decide) w.name.toList)
    have hlength := congrArg List.length (hself.symm.trans h.2)
    rw [List.length_cons, List.length_append, List.length_singleton] at hlength
    omega

theorem entries_ne_nil : w.entries ≠ [] := by
  rw [entries, splitAt_eq_splitOn]
  exact mt List.map_eq_nil_iff.mp (List.splitOn_ne_nil _ _)

end WrittenName

theorem map_readColumn_splitAt (body : String) :
    (splitAt ',' body.toList).map readColumn =
      (split ',' body).map fun part => readColumn part.toList := by
  simp only [split, List.map_map, Function.comp_def, String.toList_ofList]

/-- What is read off a list is what is read off its entries. -/
theorem sameColumns_written_eq_true_iff {written : List WrittenName} (hne : written ≠ [])
    {columns : List String} :
    sameColumns (",".intercalate (written.map WrittenName.text)) columns = true ↔
      written.flatMap WrittenName.entries = columns := by
  have hsplit := split_intercalate ',' (mt List.map_eq_nil_iff.mp hne :
    written.map WrittenName.text ≠ [])
  have hentries (w : WrittenName) :
      (split ',' w.text).map (fun part => readColumn part.toList) = w.entries :=
    (map_readColumn_splitAt w.text).symm
  rw [sameColumns_eq_true_iff, map_readColumn_splitAt, show "," = String.singleton ',' by decide,
    hsplit, List.map_flatMap, List.flatMap_map]
  simp only [hentries]

/-- **Which lists are found to be the same.** Every way to write a name that is read for a
constraint is one of the styles. Of a list of names that are written so, the comparison finds just
these names if and only if each of them is kept in its style. -/
theorem sameColumns_written_iff {written : List WrittenName} (hne : written ≠ []) :
    (∀ cs name, readName? cs = some (name, []) ↔
      ∃ style : NameStyle, style.Allows name ∧ cs = style.write name) ∧
    ((∀ columns, sameColumns (",".intercalate (written.map WrittenName.text)) columns = true ↔
      columns = written.map WrittenName.name) ↔ ∀ w ∈ written, w.IsKept) := by
  refine ⟨fun cs name => readName?_eq_some_iff, ?_⟩
  have hread : written.flatMap WrittenName.entries = written.map WrittenName.name ↔
      ∀ w ∈ written, w.IsKept := by
    rw [flatMap_eq_map_iff fun w _ => w.entries_ne_nil]
    simp only [WrittenName.entries_eq_name_iff]
  simp only [sameColumns_written_eq_true_iff hne, ← hread]
  constructor
  · intro h
    exact (h _).mp rfl
  · intro h columns
    rw [h, eq_comm]

/-- The columns of a key in three styles, with blanks around them. -/
def scoreKey : List WrittenName :=
  have isBlank_space : ∀ c ∈ [' '], isBlank c = true := List.all_eq_true.mp (by decide)
  [⟨"score", .bare, [], [], ⟨by decide, List.all_eq_true.mp (by decide)⟩, nofun, nofun⟩,
    ⟨"color", .quoted, [' '], [' '], ⟨by decide, trivial⟩, isBlank_space, isBlank_space⟩,
    ⟨"film \"A\"; x", .backticked, [' '], [], ⟨by decide, by decide⟩, isBlank_space, nofun⟩]

theorem sameColumns_written_iff_scoreKey : scoreKey ≠ [] ∧
    ∀ columns, sameColumns "score, \"color\" , \x60film \"A\"; x\x60" columns = true ↔
      columns = ["score", "color", "film \"A\"; x"] := by
  have hne : scoreKey ≠ [] := List.cons_ne_nil _ _
  have hkept : ∀ w ∈ scoreKey, w.IsKept := by
    intro w hw
    rcases List.mem_cons.mp hw with rfl | hw
    · trivial
    rcases List.mem_cons.mp hw with rfl | hw
    · exact (by decide : IsSimple "color")
    obtain rfl := List.mem_singleton.mp hw
    exact ⟨by decide, by decide, by decide⟩
  have htext : ",".intercalate (scoreKey.map WrittenName.text) =
      "score, \"color\" , \x60film \"A\"; x\x60" := by decide
  exact ⟨hne, htext ▸ (sameColumns_written_iff hne).2.mpr hkept⟩

/-- Names are read between brackets, with doubled quotes and with commas in them, but then a column
is not found to be the same as itself, and its constraint gets a name that it does not have. -/
theorem sameColumns_missesStyles :
    (readName? "[title]".toList = some ("title".toList, []) ∧
      sameColumns "[title]" ["title"] = false) ∧
    (readName? "\"a\"\"b\"".toList = some ("a\"b".toList, []) ∧
      sameColumns "\"a\"\"b\"" ["a\"b"] = false) ∧
    (readName? "\"last,first\"".toList = some ("last,first".toList, []) ∧
      sameColumns "\"last,first\"" ["last,first"] = false) ∧
    Sqlite.uniqueConstraint "film" [⟨"one_title", "UNIQUE", "[title]"⟩] ["title"] =
      .unique "film_title_key" ["title"] := by
  decide +kernel

end AdditiveSchema.Reported.Ddl
