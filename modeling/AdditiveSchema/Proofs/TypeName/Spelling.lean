import AdditiveSchema.Proofs.TypeName.Spacing
import Mathlib.Data.List.TakeDrop

/-!
# Spellings of a type

A type is spelled by its name, a modifier in parentheses and attributes behind it. The modifier
stands behind the whole name, except in the names that tell of a time zone, where it stands behind
the first word. The canonical form of a spelling is the same text with the canonical form of the
name and the attributes in upper case.

## Main definitions

* `TypeName.IsName` : some words without marks.
* `TypeName.Suffix` : a modifier and attributes.
* `TypeName.spelling` : a name with its suffix.

## Main results

* `TypeName.canonicalStemAndZone_eq` : the canonical form of the first word and of what is behind
  it.
* `TypeName.toList_canonical_spelling_none`, `TypeName.toList_canonical_spelling_some` : the
  canonical form of a spelling.
-/

namespace AdditiveSchema.TypeName

open AdditiveSchema.Text

/-- The name of a type: some words without marks. -/
structure IsName (name : String) : Prop where
  hasWord : ∃ c ∈ name.toList, isBlank c = false
  noMark : ∀ c ∈ name.toList, closesUp c = false

theorem isName_iff {name : String} :
    IsName name ↔ (name.toList.any (!isBlank ·) && name.toList.all (!closesUp ·)) = true := by
  simp only [Bool.and_eq_true, List.any_eq_true, List.all_eq_true, Bool.not_eq_true']
  exact ⟨fun h => ⟨h.hasWord, h.noMark⟩, fun h => ⟨h.1, h.2⟩⟩

instance (name : String) : Decidable (IsName name) :=
  decidable_of_iff _ isName_iff.symm

/-- What is written with the name of a type: digits and commas in parentheses, and words behind. -/
structure Suffix where
  modifier : Option String
  attributes : List String
  modifier_chars : ∀ text ∈ modifier, text.toList.all isModifierChar = true
  attributes_words : ∀ word ∈ attributes, word ≠ "" ∧ word.toList.all isWordChar = true

/-- The canonical names that have words about a time zone behind them. -/
def zonedNames : List String :=
  ["TIME WITH TIME ZONE", "TIME WITHOUT TIME ZONE", "TIMESTAMP WITH TIME ZONE",
    "TIMESTAMP WITHOUT TIME ZONE"]

/-- The name tells of a time zone. -/
def IsZoned (name : String) : Prop :=
  canonical name ∈ zonedNames

instance (name : String) : Decidable (IsZoned name) :=
  inferInstanceAs (Decidable (_ ∈ _))

/-- The part of a name in front of its modifier, and the part behind it. -/
def stemAndZone (name : String) : List Char × List Char :=
  if IsZoned name then (trim name.toList).span (!isBlank ·) else (name.toList, [])

/-- The attributes, each with a space in front of it. -/
def Suffix.words (suffix : Suffix) : List Char :=
  spacedWords (suffix.attributes.map String.toList)

/-- A name with its suffix. -/
def spelling (name : String) (suffix : Suffix) : String :=
  let (stem, zone) := stemAndZone name
  match suffix.modifier with
  | none => String.ofList (name.toList ++ suffix.words)
  | some text => String.ofList (stem ++ '(' :: (text.toList ++ ')' :: (zone ++ suffix.words)))

variable {name text word : String} {suffix : Suffix} {cs ds first rest : List Char}

/-! ### Suffixes -/

namespace Suffix

theorem isModifierChar_of_mem (h : suffix.modifier = some text) :
    ∀ c ∈ text.toList, isModifierChar c = true :=
  List.all_eq_true.mp (suffix.modifier_chars text h)

theorem isWordChar_of_mem (h : word ∈ suffix.attributes) :
    ∀ c ∈ word.toList, isWordChar c = true :=
  List.all_eq_true.mp (suffix.attributes_words word h).2

theorem toList_ne_nil (h : word ∈ suffix.attributes) : word.toList ≠ [] :=
  String.toList_eq_nil_iff.not.mpr (suffix.attributes_words word h).1

/-- A modifier alone. -/
def ofModifier (text : String) (h : text.toList.all isModifierChar = true) : Suffix where
  modifier := some text
  attributes := []
  modifier_chars := by rintro _ ⟨⟩; exact h
  attributes_words := nofun

/-- Attributes alone. -/
def ofAttributes (attributes : List String)
    (h : ∀ word ∈ attributes, word ≠ "" ∧ word.toList.all isWordChar = true) : Suffix where
  modifier := none
  attributes := attributes
  modifier_chars := nofun
  attributes_words := h

/-- The suffix without its modifier. -/
def withoutModifier (suffix : Suffix) : Suffix :=
  ofAttributes suffix.attributes suffix.attributes_words

/-- The attributes in upper case. -/
def canonicalWords (suffix : Suffix) : List Char :=
  spacedWords (suffix.attributes.map fun word => uppercase word.toList)

theorem head?_words (suffix : Suffix) : ∀ c ∈ suffix.words.head?, isBlank c = true :=
  head?_spacedWords _

theorem following_words (suffix : Suffix) :
    following suffix.words = suffix.canonicalWords := by
  rw [words, following_spacedWords, List.map_map]
  · rfl
  · rintro _ hword
    obtain ⟨word, hmem, rfl⟩ := List.mem_map.mp hword
    exact ⟨toList_ne_nil hmem, isWordChar_of_mem hmem⟩

theorem closesUp_of_mem_canonicalWords (suffix : Suffix) :
    ∀ c ∈ suffix.canonicalWords, closesUp c = false := by
  intro c hc
  obtain ⟨_, hword, hmem⟩ := List.mem_flatMap.mp hc
  obtain ⟨word, hattribute, rfl⟩ := List.mem_map.mp hword
  rcases List.mem_cons.mp hmem with rfl | hmem
  · rfl
  · have hchars := isWordChar_of_mem hattribute
    exact (isWordChar_eq_true_iff.mp (isWordChar_of_mem_uppercase hchars c hmem)).2

theorem canonicalWords_eq_nil (h : suffix.attributes = []) :
    suffix.canonicalWords = [] := by
  rw [canonicalWords, h]
  rfl

theorem exists_canonicalWords_eq (h : suffix.attributes ≠ []) :
    ∃ c cs, suffix.canonicalWords = ' ' :: c :: cs ∧ isWordChar c = true := by
  obtain ⟨word, words, hattributes⟩ := List.exists_cons_of_ne_nil h
  have hword : word ∈ suffix.attributes := hattributes ▸ List.mem_cons_self
  obtain ⟨c, cs, hcs⟩ := List.exists_cons_of_ne_nil (uppercase_ne_nil (toList_ne_nil hword))
  have hc := isWordChar_of_mem_uppercase (isWordChar_of_mem hword) c
    (hcs ▸ List.mem_cons_self)
  refine ⟨c, cs ++ spacedWords (words.map fun word => uppercase word.toList), ?_, hc⟩
  rw [canonicalWords, hattributes, List.map_cons, spacedWords, List.flatMap_cons, hcs]
  rfl

theorem space_mem_canonicalWords (h : suffix.attributes ≠ []) :
    ' ' ∈ suffix.canonicalWords := by
  obtain ⟨c, cs, hwords, -⟩ := exists_canonicalWords_eq h
  rw [hwords]
  exact List.mem_cons_self

end Suffix

/-! ### The first word -/

theorem span_append (h : ∀ c ∈ cs, isBlank c = false) (hds : ∀ c ∈ ds.head?, isBlank c = true) :
    (cs ++ ds).span (!isBlank ·) = (cs, ds) := by
  have hfirst : ∀ c ∈ cs, (!isBlank c) = true := by simpa using h
  rw [List.span_eq_takeWhile_dropWhile, List.takeWhile_append_of_pos hfirst,
    List.dropWhile_append_of_pos hfirst]
  cases ds with
  | nil => simp
  | cons d ds => simp [hds d rfl]

/-- A text that is a word, and behind it, after a blank, some text without marks. -/
structure IsWordAnd (first rest : List Char) : Prop where
  word : ∀ c ∈ first, isWordChar c = true
  nonempty : first ≠ []
  noMark : ∀ c ∈ rest, closesUp c = false
  gap : ∀ c ∈ rest.head?, isBlank c = true

theorem IsName.exists_isWordAnd (h : IsName name) :
    ∃ first rest, trim name.toList = first ++ rest ∧ IsWordAnd first rest := by
  obtain ⟨front, behind, hfront, hbehind, hname⟩ := exists_eq_append_trim name.toList
  have hmark : ∀ c ∈ trim name.toList, closesUp c = false := fun c hc =>
    h.noMark c (hname ▸ List.mem_append_right _ (List.mem_append_left _ hc))
  have hne : trim name.toList ≠ [] := by
    intro hnil
    obtain ⟨c, hc, hblank⟩ := h.hasWord
    rw [hname, hnil, List.nil_append, List.mem_append] at hc
    rcases hc with hc | hc
    · cases hblank.symm.trans (hfront c hc)
    · cases hblank.symm.trans (hbehind c hc)
  have hsplit := List.takeWhile_append_dropWhile (p := (!isBlank ·)) (l := trim name.toList)
  refine ⟨_, _, hsplit.symm, fun c hc => ?_, ?_, fun c hc => ?_, fun c hc => ?_⟩
  · have hblank : isBlank c = false := by simpa using List.mem_takeWhile_imp hc
    exact isWordChar_eq_true_iff.mpr ⟨hblank, hmark c (List.takeWhile_subset _ hc)⟩
  · obtain ⟨c, text, htext⟩ := List.exists_cons_of_ne_nil hne
    have hblank : isBlank c = false := head?_trim name.toList c (by rw [htext]; rfl)
    rw [htext, List.takeWhile_cons_of_pos (by simp [hblank])]
    exact List.cons_ne_nil _ _
  · exact hmark c ((List.dropWhile_sublist _).subset hc)
  · have hhead := List.head?_dropWhile_not (!isBlank ·) (trim name.toList)
    rw [Option.mem_def.mp hc] at hhead
    simpa using hhead

namespace IsWordAnd

theorem isBlank_first (h : IsWordAnd first rest) : ∀ c ∈ first, isBlank c = false :=
  fun c hc => (isWordChar_eq_true_iff.mp (h.word c hc)).1

theorem span (h : IsWordAnd first rest) : (first ++ rest).span (!isBlank ·) = (first, rest) :=
  span_append h.isBlank_first h.gap

/-- The upper case of the word with what is written for the text behind it. -/
theorem upper (h : IsWordAnd first rest) :
    IsWordAnd (uppercase first) (following rest) where
  word := isWordChar_of_mem_uppercase h.word
  nonempty := uppercase_ne_nil h.nonempty
  noMark := closesUp_of_mem_spaced h.noMark
  gap := head?_following h.noMark h.gap

theorem spaced_append (h : IsWordAnd first rest) :
    spaced none false (uppercase (first ++ rest)) = uppercase first ++ following rest := by
  obtain ⟨c, hc⟩ := List.exists_mem_of_ne_nil first h.nonempty
  rw [spaced_name_append (fun c hc => (isWordChar_eq_true_iff.mp (h.word c hc)).2)
    ⟨c, hc, h.isBlank_first c hc⟩ h.gap, spaced_of_nonblank h.upper.isBlank_first]

end IsWordAnd

/-! ### Canonical forms -/

theorem spelling_ne_empty (h : IsName name) (suffix : Suffix) : spelling name suffix ≠ "" := by
  obtain ⟨c, hc, -⟩ := h.hasWord
  rw [ne_eq, ← String.toList_eq_nil_iff, spelling]
  dsimp only
  cases suffix.modifier with
  | none => simp [List.ne_nil_of_mem hc]
  | some text => simp

theorem closesUp_of_mem_canonical (h : IsName name) :
    ∀ c ∈ (canonical name).toList, closesUp c = false := by
  rw [toList_canonical]
  exact closesUp_of_mem_spaced h.noMark

/-- The part of a canonical name in front of the modifier, and the part behind it. -/
def canonicalStemAndZone (name : String) : List Char × List Char :=
  if IsZoned name then (canonical name).toList.span (!isBlank ·) else ((canonical name).toList, [])

theorem canonicalStemAndZone_of_not_isZoned (h : ¬IsZoned name) :
    canonicalStemAndZone name = ((canonical name).toList, []) :=
  if_neg h

/-- **The canonical form of the parts of a name.** -/
theorem canonicalStemAndZone_eq (h : IsName name) :
    canonicalStemAndZone name =
      (spaced none false (uppercase (stemAndZone name).1), following (stemAndZone name).2) := by
  obtain ⟨first, rest, hname, hwords⟩ := h.exists_isWordAnd
  rw [canonicalStemAndZone, stemAndZone]
  -- with a time zone, the first blank of the canonical name stands where that of the name stands
  split
  · rw [canonical, String.toList_ofList, hname, hwords.spaced_append, hwords.span,
      hwords.upper.span, spaced_of_nonblank hwords.upper.isBlank_first]
  · rw [toList_canonical]
    rfl

theorem closesUp_stemAndZone (h : IsName name) :
    (∀ c ∈ (stemAndZone name).1, closesUp c = false) ∧
      ∀ c ∈ (stemAndZone name).2, closesUp c = false := by
  obtain ⟨first, rest, hname, hwords⟩ := h.exists_isWordAnd
  rw [stemAndZone]
  split
  · rw [hname, hwords.span]
    exact ⟨fun c hc => (isWordChar_eq_true_iff.mp (hwords.word c hc)).2, hwords.noMark⟩
  · exact ⟨h.noMark, fun c hc => nomatch hc⟩

/-- **A spelling without modifier.** -/
theorem toList_canonical_spelling_none (h : IsName name) (hmodifier : suffix.modifier = none) :
    (canonical (spelling name suffix)).toList =
      (canonical name).toList ++ suffix.canonicalWords := by
  rw [toList_canonical, spelling]
  dsimp only
  rw [hmodifier, String.toList_ofList,
    spaced_name_append h.noMark h.hasWord suffix.head?_words, suffix.following_words,
    toList_canonical]

/-- **A spelling with a modifier.** -/
theorem toList_canonical_spelling_some (h : IsName name)
    (hmodifier : suffix.modifier = some text) :
    (canonical (spelling name suffix)).toList = (canonicalStemAndZone name).1 ++
      '(' :: (text.toList ++ ')' :: ((canonicalStemAndZone name).2 ++ suffix.canonicalWords)) := by
  have htext := Suffix.isModifierChar_of_mem hmodifier
  rw [toList_canonical, spelling, canonicalStemAndZone_eq h]
  dsimp only
  rw [hmodifier, String.toList_ofList, uppercase_append, TypeName.spaced_append,
    spaced_modifier htext, following_append (closesUp_stemAndZone h).2 suffix.head?_words,
    suffix.following_words]

/-- The canonical form of a spelling depends on the canonical form of the name. -/
theorem canonical_spelling_congr {a b : String} (ha : IsName a) (hb : IsName b)
    (h : canonical a = canonical b) (suffix : Suffix) :
    canonical (spelling a suffix) = canonical (spelling b suffix) := by
  have hzoned : IsZoned a ↔ IsZoned b := by rw [IsZoned, IsZoned, h]
  have hparts : canonicalStemAndZone a = canonicalStemAndZone b := by
    simp only [canonicalStemAndZone, hzoned, h]
  rw [← String.toList_inj]
  cases hmodifier : suffix.modifier with
  | none => rw [toList_canonical_spelling_none ha hmodifier,
      toList_canonical_spelling_none hb hmodifier, h]
  | some text => rw [toList_canonical_spelling_some ha hmodifier,
      toList_canonical_spelling_some hb hmodifier, hparts]

end AdditiveSchema.TypeName
