import AdditiveSchema.Proofs.Directive.Grammar
import AdditiveSchema.Proofs.Text.Splitting

/-!
# Writing modifiers

A modifier is written as its name with its value between braces, and a flag as its name alone.
What is written for a row of modifiers is read as these modifiers, whatever the values hold, as long
as their braces match. The text of a row is balanced itself, so it can be a value in turn, and
nothing is lost at any depth.

## Main definitions

* `Modifier.write`, `writeRow` : the text of a modifier, and of a row with gaps of any kind.
* `Nested` : values inside of values, with the way in which each of them is read.
* `Nested.IsReadFrom` : a text is read as nested values.

## Main results

* `closesBare_write` : a written modifier is one value.
* `modifiersAt_writeRow` : what is read from a row.
* `Nested.isReadFrom_write` : what is read from nested values.
* `modifiers_writeRow` : reading undoes writing.
-/

namespace AdditiveSchema.Directive

open AdditiveSchema.Text

/-! ### The text of a row -/

/-- A name that a modifier can be written with. -/
structure IsName (name : String) : Prop where
  ne_empty : name ≠ ""
  plain : ∀ c ∈ name.toList, isBlank c = false ∧ c ≠ '{' ∧ c ≠ '}' ∧ c ≠ '='

/-- Blanks, at least one, that stand between two values. -/
structure IsGap (gap : List Char) : Prop where
  ne_nil : gap ≠ []
  blank : ∀ c ∈ gap, isBlank c = true

instance (name : String) : Decidable (IsName name) :=
  decidable_of_iff (name ≠ "" ∧ (name.toList.all fun c =>
    !isBlank c && c != '{' && c != '}' && c != '=') = true)
    ⟨fun ⟨hne, hplain⟩ => ⟨hne, by simpa [and_assoc] using hplain⟩,
      fun ⟨hne, hplain⟩ => ⟨hne, by simpa [and_assoc] using hplain⟩⟩

instance (gap : List Char) : Decidable (IsGap gap) :=
  decidable_of_iff (gap ≠ [] ∧ gap.all isBlank = true)
    ⟨fun ⟨hne, hblank⟩ => ⟨hne, List.all_eq_true.mp hblank⟩,
      fun ⟨hne, hblank⟩ => ⟨hne, List.all_eq_true.mpr hblank⟩⟩

namespace Modifier

/-- The text of a modifier. -/
def write (m : Modifier) : List Char :=
  if m.isFlag then m.name.toList else m.name.toList ++ '=' :: '{' :: (m.value.toList ++ ['}'])

/-- The modifier can be written: it has a name, and the braces of its value match. -/
structure IsWritable (m : Modifier) : Prop where
  name : IsName m.name
  value : IsBalanced m.value.toList

end Modifier

/-- The text of modifiers, each behind its gap. -/
def writeBehind (row : List (List Char × Modifier)) : List Char :=
  row.flatMap fun (gap, m) => gap ++ m.write

/-- The text of modifiers with their gaps between them. That of the first one is left out. -/
def writeRow : List (List Char × Modifier) → List Char
  | [] => []
  | (_, m) :: row => m.write ++ writeBehind row

/-- All gaps are gaps, and all modifiers can be written. -/
def IsRow (row : List (List Char × Modifier)) : Prop :=
  ∀ entry ∈ row, IsGap entry.1 ∧ entry.2.IsWritable

/-! ### One modifier -/

theorem closesBare_append {depth : Nat} {cs ds : List Char}
    (hplain : ∀ c ∈ cs, isBlank c = false ∧ c ≠ '{' ∧ c ≠ '}') (h : ClosesBare depth ds) :
    ClosesBare depth (cs ++ ds) := by
  induction cs with
  | nil => exact h
  | cons c cs ih =>
    obtain ⟨hblank, hopen, hclose⟩ := hplain c List.mem_cons_self
    exact closesBare_cons_iff.mpr ⟨fun h => by simp [hblank] at h, depth,
      stepDepth_of_ne hopen hclose depth, ih fun b hb => hplain b (List.mem_cons_of_mem c hb)⟩

/-- Blanks may stand anywhere between braces. -/
theorem closesBare_concat {depth : Nat} {cs : List Char} (h : depthBehind depth cs = some 0) :
    ClosesBare (depth + 1) (cs ++ ['}']) := by
  induction cs generalizing depth with
  | nil =>
    cases h
    exact closesBare_cons_iff.mpr ⟨fun _ => Nat.one_ne_zero, 0, rfl, closesBare_nil_iff.mpr rfl⟩
  | cons c cs ih =>
    obtain ⟨next, hnext, hcs⟩ := Option.bind_eq_some_iff.mp h
    exact closesBare_cons_iff.mpr
      ⟨fun _ => Nat.succ_ne_zero depth, next + 1, stepDepth_succ_iff.mpr hnext, ih hcs⟩

namespace Modifier

variable {m : Modifier}

theorem isFlag_iff : m.isFlag = true ↔ m.value = "" :=
  String.isEmpty_iff

/-- **A written modifier is one value:** its braces get closed, and blanks stand inside of them. -/
theorem closesBare_write (h : m.IsWritable) : ClosesBare 0 m.write := by
  have hname (c : Char) (hc : c ∈ m.name.toList) : isBlank c = false ∧ c ≠ '{' ∧ c ≠ '}' :=
    ⟨(h.name.plain c hc).1, (h.name.plain c hc).2.1, (h.name.plain c hc).2.2.1⟩
  unfold write
  split
  · simpa using closesBare_append hname (closesBare_nil_iff.mpr rfl)
  · refine closesBare_append hname ?_
    refine closesBare_cons_iff.mpr ⟨fun h => absurd h (by decide), 0, rfl, ?_⟩
    refine closesBare_cons_iff.mpr ⟨fun h => absurd h (by decide), 1, rfl, ?_⟩
    exact closesBare_concat (isBalanced_iff.mp h.value)

theorem isBalanced_write (h : m.IsWritable) : IsBalanced m.write :=
  isBalanced_iff.mpr (closesBare_write h).depthBehind_eq

/-- The text of a modifier begins with its name. -/
theorem exists_write_eq_cons (h : m.IsWritable) :
    ∃ c cs, m.write = c :: cs ∧ isBlank c = false ∧ c ≠ '{' := by
  have hne : m.name.toList ≠ [] := fun hnil => h.name.ne_empty (String.toList_eq_nil_iff.mp hnil)
  obtain ⟨c, cs, hcs⟩ := List.exists_cons_of_ne_nil hne
  have hplain := h.name.plain c (hcs ▸ List.mem_cons_self)
  unfold write
  split
  · exact ⟨c, cs, hcs, hplain.1, hplain.2.1⟩
  · exact ⟨c, _, by rw [hcs, List.cons_append], hplain.1, hplain.2.1⟩

/-- Its text tells a modifier. -/
theorem ofValue_write (h : m.IsWritable) : ofValue m.write = m := by
  have hequals : '=' ∉ m.name.toList := fun hmem => (h.name.plain '=' hmem).2.2.2 rfl
  unfold write
  split
  · rename_i hflag
    rw [ofValue, splitFirst?_of_notMem hequals, String.ofList_toList, ← isFlag_iff.mp hflag]
  · have hstrip : stripBraces ('{' :: (m.value.toList ++ ['}'])) = m.value.toList := by
      have hlast : ('{' :: (m.value.toList ++ ['}'])).getLast? = some '}' := by
        rw [← List.cons_append, List.getLast?_concat]
      simp [stripBraces, inner_cons_append, hlast]
    rw [ofValue, splitFirst?_append hequals]
    simp only [hstrip, String.ofList_toList]

end Modifier

/-! ### Rows of modifiers -/

section Rows

variable {pos : Nat} {cs value rest blanks : List Char}

@[simp] theorem modifiersAt_nil (pos : Nat) : modifiersAt pos [] = .ok [] := by
  rw [modifiersAt, dif_pos rfl]

/-- One value is cut off, then comes the rest. -/
theorem modifiersAt_of_cutAt (hne : cs ≠ []) (h : cutAt pos cs = .ok (value, rest)) :
    modifiersAt pos cs =
      (modifiersAt (pos + (byteLength cs - byteLength rest)) rest).map fun modifiers =>
        if value.isEmpty then modifiers else .ofValue value :: modifiers := by
  rw [modifiersAt, dif_neg hne]
  split
  · rename_i e he
    cases he.symm.trans h
  · rename_i value' rest' hread
    cases hread.symm.trans h
    rfl

theorem trimStart_append {gap cs : List Char} (hgap : ∀ c ∈ gap, isBlank c = true)
    (hcs : ∀ c ∈ cs.head?, isBlank c = false) : trimStart (gap ++ cs) = cs := by
  rw [trimStart, List.dropWhile_append_of_pos hgap]
  cases cs with
  | nil => rfl
  | cons c cs => rw [List.dropWhile_cons_of_neg (by simp [hcs c rfl])]

theorem head?_writeBehind {row : List (List Char × Modifier)} (h : IsRow row) :
    ∀ c ∈ (writeBehind row).head?, isBlank c = true := by
  cases row with
  | nil => rintro _ ⟨⟩
  | cons entry row =>
    obtain ⟨gap, m⟩ := entry
    have hgap := (h _ List.mem_cons_self).1
    obtain ⟨c, behind, rfl⟩ := List.exists_cons_of_ne_nil hgap.ne_nil
    rintro _ ⟨⟩
    exact hgap.blank c List.mem_cons_self

theorem modifiersAt_of_isBlank (h : ∀ c ∈ blanks, isBlank c = true)
    (pos : Nat) : modifiersAt pos blanks = .ok [] := by
  by_cases hnil : blanks = []
  · rw [hnil, modifiersAt_nil]
  · have hcut : cutAt pos blanks = .ok ([], []) := by
      rw [cutAt_eq_ok_iff, ← List.append_nil blanks, trimStart_append h (by simp)]
      exact .nothing
    rw [modifiersAt_of_cutAt hnil hcut, modifiersAt_nil]
    rfl

/-- **A written modifier is read** from behind any blanks, if the text behind it is empty or begins
with a blank. -/
theorem modifiersAt_write_append {m : Modifier} (hm : m.IsWritable)
    (hblanks : ∀ c ∈ blanks, isBlank c = true) (hrest : ∀ c ∈ rest.head?, isBlank c = true)
    {ms : List Modifier} (hms : ∀ pos, modifiersAt pos rest = .ok ms) (pos : Nat) :
    modifiersAt pos (blanks ++ (m.write ++ rest)) = .ok (m :: ms) := by
  obtain ⟨c, cs, hwrite, hblank, hopen⟩ := Modifier.exists_write_eq_cons hm
  have hcut : cutAt pos (blanks ++ (m.write ++ rest)) = .ok (m.write, rest) := by
    rw [cutAt_eq_ok_iff, trimStart_append hblanks (by simpa [hwrite] using hblank), hwrite,
      List.cons_append, isFirstValue_cons_iff hopen hblank, ← hwrite]
    exact ⟨by rw [hwrite, List.cons_append], Modifier.closesBare_write hm, hrest⟩
  rw [modifiersAt_of_cutAt (by simp [hwrite]) hcut, hms, Modifier.ofValue_write hm, hwrite]
  rfl

/-- **What is read from a row** behind its first gap. -/
theorem modifiersAt_writeBehind {row : List (List Char × Modifier)} (h : IsRow row) (pos : Nat) :
    modifiersAt pos (writeBehind row) = .ok (row.map Prod.snd) := by
  induction row generalizing pos with
  | nil => exact modifiersAt_nil pos
  | cons entry row ih =>
    obtain ⟨⟨hgap, hm⟩, hrow⟩ := List.forall_mem_cons.mp h
    rw [writeBehind, List.flatMap_cons, List.append_assoc]
    exact modifiersAt_write_append hm hgap.blank (head?_writeBehind hrow) (ih hrow) pos

/-- **What is read from a row** behind any blanks. -/
theorem modifiersAt_writeRow {row : List (List Char × Modifier)} (h : IsRow row)
    (blanks : List Char) (hblanks : ∀ c ∈ blanks, isBlank c = true) (pos : Nat) :
    modifiersAt pos (blanks ++ writeRow row) = .ok (row.map Prod.snd) := by
  cases row with
  | nil =>
    rw [writeRow, List.append_nil]
    exact modifiersAt_of_isBlank hblanks pos
  | cons entry row =>
    obtain ⟨⟨-, hm⟩, hrow⟩ := List.forall_mem_cons.mp h
    exact modifiersAt_write_append hm hblanks (head?_writeBehind hrow)
      (modifiersAt_writeBehind hrow) pos

end Rows

/-! ### Values inside of values -/

mutual

/-- A value of a directive with the way in which it is read: as it is, as modifiers, or as a value
with modifiers behind it. -/
inductive Nested where
  | text (value : String)
  | row (entries : NestedRow)
  | headed (value : String) (entries : NestedRow)

/-- Modifiers with values that are read in turn, each behind its gap. -/
inductive NestedRow where
  | nil
  | cons (gap : List Char) (name : String) (value : Nested) (rest : NestedRow)

end

mutual

/-- The text of nested values. -/
def Nested.write : Nested → List Char
  | .text value => value.toList
  | .row entries => writeRow entries.modifiers
  | .headed value entries => '{' :: (value.toList ++ '}' :: writeBehind entries.modifiers)

/-- The modifiers with the texts of their values. -/
def NestedRow.modifiers : NestedRow → List (List Char × Modifier)
  | .nil => []
  | .cons gap name value rest => (gap, ⟨name, String.ofList value.write⟩) :: rest.modifiers

end

mutual

/-- All gaps are gaps, all names can be written, and the braces of the texts match. -/
def Nested.IsWritable : Nested → Prop
  | .text value => IsBalanced value.toList
  | .row entries => entries.IsWritable
  | .headed value entries => IsBalanced value.toList ∧ entries.IsWritable

/-- This holds of every modifier. -/
def NestedRow.IsWritable : NestedRow → Prop
  | .nil => True
  | .cons gap name value rest => IsGap gap ∧ IsName name ∧ value.IsWritable ∧ rest.IsWritable

end

mutual

/-- The text is read as the nested values, at every depth in their way. -/
def Nested.IsReadFrom : Nested → String → Prop
  | .text value, s => s = value
  | .row entries, s => ∃ ms, Directive.modifiers s = .ok ms ∧ entries.AreReadFrom ms
  | .headed value entries, s =>
    ∃ ms, valueAndModifiers s = .ok (value, ms) ∧ entries.AreReadFrom ms

/-- The modifiers have the names, and their values are read as the nested ones. -/
def NestedRow.AreReadFrom : NestedRow → List Modifier → Prop
  | .nil, ms => ms = []
  | .cons _ name value rest, ms =>
    ∃ m behind, ms = m :: behind ∧ m.name = name ∧ value.IsReadFrom m.value ∧
      rest.AreReadFrom behind

end

/-! ### Balanced texts of nested values -/

theorem isBalanced_writeBehind {row : List (List Char × Modifier)} (h : IsRow row) :
    IsBalanced (writeBehind row) := by
  induction row with
  | nil => exact isBalanced_nil
  | cons entry row ih =>
    obtain ⟨hgap, hm⟩ := h entry List.mem_cons_self
    exact ((isBalanced_of_isBlank hgap.blank).append (Modifier.isBalanced_write hm)).append
      (ih fun entry hentry => h entry (List.mem_cons_of_mem _ hentry))

/-- The text of a row is balanced, so it can be the value of a modifier in turn. -/
theorem isBalanced_writeRow {row : List (List Char × Modifier)} (h : IsRow row) :
    IsBalanced (writeRow row) := by
  cases row with
  | nil => exact isBalanced_nil
  | cons entry row =>
    exact (Modifier.isBalanced_write (h entry List.mem_cons_self).2).append
      (isBalanced_writeBehind fun entry hentry => h entry (List.mem_cons_of_mem _ hentry))

mutual

theorem Nested.isBalanced_write {t : Nested} (h : t.IsWritable) : IsBalanced t.write := by
  cases t with
  | text value => exact h
  | row entries => exact isBalanced_writeRow (NestedRow.isRow_modifiers h)
  | headed value entries =>
    have hentries := isBalanced_writeBehind (NestedRow.isRow_modifiers h.2)
    simpa [Nested.write] using h.1.braces.append hentries

theorem NestedRow.isRow_modifiers {entries : NestedRow} (h : entries.IsWritable) :
    IsRow entries.modifiers := by
  cases entries with
  | nil => exact nofun
  | cons gap name value rest =>
    obtain ⟨hgap, hname, hvalue, hrest⟩ := h
    refine List.forall_mem_cons.mpr ⟨⟨hgap, hname, ?_⟩, NestedRow.isRow_modifiers hrest⟩
    rw [String.toList_ofList]
    exact Nested.isBalanced_write hvalue

end

/-! ### Reading undoes writing -/

theorem modifiers_ofList (cs : List Char) : modifiers (String.ofList cs) = modifiersAt 0 cs := by
  rw [modifiers, String.toList_ofList]

/-- A value between braces is cut off, and modifiers are read from the text behind it. -/
theorem valueAndModifiers_ofList {value rest : List Char} (hvalue : IsBalanced value)
    {ms : List Modifier} (hrest : ∀ pos, modifiersAt pos rest = .ok ms) :
    valueAndModifiers (String.ofList ('{' :: (value ++ '}' :: rest))) =
      .ok (String.ofList value, ms) := by
  have hcut : cut ('{' :: (value ++ '}' :: rest)) = .ok (value, rest) := by
    have htrim : trimStart ('{' :: (value ++ '}' :: rest)) = '{' :: (value ++ '}' :: rest) := by
      rw [trimStart, List.dropWhile_cons_of_neg (by decide)]
    rw [cut, cutAt_eq_ok_iff, htrim]
    exact .braced hvalue
  simp only [valueAndModifiers, String.toList_ofList, hcut]
  change (modifiersAt _ rest >>= _) = _
  rw [hrest]
  rfl

mutual

/-- **What is read from nested values** is what was written, at every depth. -/
theorem Nested.isReadFrom_write {t : Nested} (h : t.IsWritable) :
    t.IsReadFrom (String.ofList t.write) := by
  cases t with
  | text value => exact String.ofList_toList
  | row entries =>
    have hread := modifiersAt_writeRow (NestedRow.isRow_modifiers h) [] nofun 0
    exact ⟨_, (modifiers_ofList _).trans hread, NestedRow.areReadFrom_modifiers h⟩
  | headed value entries =>
    have hread := valueAndModifiers_ofList h.1
      (modifiersAt_writeBehind (NestedRow.isRow_modifiers h.2))
    rw [String.ofList_toList] at hread
    exact ⟨_, hread, NestedRow.areReadFrom_modifiers h.2⟩

theorem NestedRow.areReadFrom_modifiers {entries : NestedRow} (h : entries.IsWritable) :
    entries.AreReadFrom (entries.modifiers.map Prod.snd) := by
  cases entries with
  | nil => rfl
  | cons gap name value rest =>
    exact ⟨_, _, rfl, rfl, Nested.isReadFrom_write h.2.2.1,
      NestedRow.areReadFrom_modifiers h.2.2.2⟩

end

/-- **Reading undoes writing.** From the text of a row of modifiers, whatever gaps there are between
them, these modifiers are read, in order and nothing else; from a value between braces with such a
text behind it, the value is read, too. So nested values are read as they were written, at every
depth. -/
theorem modifiers_writeRow :
    (∀ row, IsRow row → modifiers (String.ofList (writeRow row)) = .ok (row.map Prod.snd)) ∧
    (∀ value gap row, IsBalanced value → IsGap gap → IsRow row →
      valueAndModifiers (String.ofList ('{' :: (value ++ '}' :: (gap ++ writeRow row)))) =
        .ok (String.ofList value, row.map Prod.snd)) ∧
    ∀ t : Nested, t.IsWritable → t.IsReadFrom (String.ofList t.write) := by
  refine ⟨fun row hrow => ?_, fun value gap row hvalue hgap hrow => ?_, fun t ht => ?_⟩
  · exact (modifiers_ofList _).trans (modifiersAt_writeRow hrow [] nofun 0)
  · exact valueAndModifiers_ofList hvalue (modifiersAt_writeRow hrow gap hgap.blank)
  · exact Nested.isReadFrom_write ht

/-- An index over part of a table, as modifiers with gaps of different kinds. -/
def partialIndex : NestedRow :=
  .cons [' '] "cols" (.text "title")
    (.cons [' ', '\t'] "unique" (.text "")
      (.cons ['\n'] "where" (.text "tags <> {}") .nil))

/-- The index is read as it was written, alone, behind a label, and as the value of a modifier. -/
theorem modifiers_writeRow_partialIndex :
    modifiers "cols={title} \tunique\nwhere={tags <> {}}" =
      .ok [⟨"cols", "title"⟩, ⟨"unique", ""⟩, ⟨"where", "tags <> {}"⟩] ∧
    valueAndModifiers "{by title} cols={title} \tunique\nwhere={tags <> {}}" =
      .ok ("by title", [⟨"cols", "title"⟩, ⟨"unique", ""⟩, ⟨"where", "tags <> {}"⟩]) ∧
    (Nested.row (.cons [' '] "index" (.headed "by title" partialIndex) .nil)).IsReadFrom
      ("index=\x7b" ++ "{by title} cols={title} \tunique\nwhere={tags <> {}}" ++ "\x7d") := by
  have hgaps : IsGap [' '] ∧ IsGap [' ', '\t'] ∧ IsGap ['\n'] := by decide
  have hnames : IsName "cols" ∧ IsName "unique" ∧ IsName "where" ∧ IsName "index" := by decide
  have hvalue : IsBalanced "by title".toList := by decide
  have hvalues : IsBalanced "title".toList ∧ IsBalanced "".toList ∧
      IsBalanced "tags <> {}".toList := by
    decide
  have hindex : partialIndex.IsWritable :=
    ⟨hgaps.1, hnames.1, hvalues.1, hgaps.2.1, hnames.2.1, hvalues.2.1, hgaps.2.2, hnames.2.2.1,
      hvalues.2.2, trivial⟩
  have htext : String.ofList (writeRow partialIndex.modifiers) =
      "cols={title} \tunique\nwhere={tags <> {}}" := by decide
  have hheadedText : String.ofList ('{' :: ("by title".toList ++ '}' ::
      ([' '] ++ writeRow partialIndex.modifiers))) =
      "{by title} cols={title} \tunique\nwhere={tags <> {}}" := by decide
  have hnestedText : String.ofList (Nested.write
      (.row (.cons [' '] "index" (.headed "by title" partialIndex) .nil))) =
      "index=\x7b" ++ "{by title} cols={title} \tunique\nwhere={tags <> {}}" ++ "\x7d" := by
    decide
  obtain ⟨hrow, hheaded, hnested⟩ := modifiers_writeRow
  refine ⟨?_, ?_, ?_⟩
  · rw [← htext]
    exact hrow _ (NestedRow.isRow_modifiers hindex)
  · rw [← hheadedText]
    exact hheaded _ _ _ hvalue hgaps.1 (NestedRow.isRow_modifiers hindex)
  · rw [← hnestedText]
    exact hnested _ ⟨hgaps.1, hnames.2.2.2, ⟨hvalue, hindex⟩, trivial⟩

end AdditiveSchema.Directive
