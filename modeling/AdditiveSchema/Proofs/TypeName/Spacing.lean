import AdditiveSchema.Proofs.Text.Blanks
import AdditiveSchema.Proofs.TypeName.Uppercase
import Mathlib.Data.List.Basic

/-!
# The spacing of canonical types

A canonical type is written character by character. What is written for a text depends on what
stands in front of it only through the character written last and the blanks since, so the canonical
form of a text that is put together is put together from those of its parts.

## Main definitions

* `TypeName.following` : how a text is written behind a word or a closing parenthesis.

## Main results

* `TypeName.spaced_append` : the parts of a text.
* `TypeName.toList_canonical` : blanks at the ends do not count.
* `TypeName.spaced_append_following` : a text behind a word.
* `TypeName.following_spacedWords` : words behind a word.
* `TypeName.spaced_modifier` : a text in parentheses.
-/

namespace AdditiveSchema.TypeName

open AdditiveSchema.Text

variable {c l : Char} {cs ds word : List Char} {last : Option Char} {gap : Bool}

/-! ### One character -/

theorem spaced_cons_blank (h : isBlank c = true) (last : Option Char) (gap : Bool)
    (cs : List Char) : spaced last gap (c :: cs) = spaced last true cs := by
  rw [spaced, if_pos h]

theorem spaced_cons (h : isBlank c = false) (last : Option Char) (gap : Bool) (cs : List Char) :
    spaced last gap (c :: cs) =
      (if gap && !closesUp c && last.any fun l => !opensUp l then [' '] else []) ++
        c :: spaced (some c) false cs := by
  rw [spaced, if_neg (by simp [h])]
  dsimp only
  split <;> rfl

/-- Nothing is written but spaces and what stands in the text. -/
theorem eq_space_or_mem_of_mem_spaced (h : c ∈ spaced last gap cs) : c = ' ' ∨ c ∈ cs := by
  induction cs generalizing last gap with
  | nil => cases h
  | cons d cs ih =>
    cases hd : isBlank d with
    | true =>
      rw [spaced_cons_blank hd] at h
      exact (ih h).imp_right (List.mem_cons_of_mem d)
    | false =>
      rw [spaced_cons hd, List.mem_append, List.mem_cons] at h
      rcases h with h | rfl | h
      · exact Or.inl (by split at h <;> simp_all)
      · exact Or.inr List.mem_cons_self
      · exact (ih h).imp_right (List.mem_cons_of_mem d)

/-- No blank is written at the end. -/
theorem getLast?_spaced : ∀ c ∈ (spaced last gap cs).getLast?, isBlank c = false := by
  induction cs generalizing last gap with
  | nil => rintro _ ⟨⟩
  | cons d cs ih =>
    cases hd : isBlank d with
    | true =>
      rw [spaced_cons_blank hd]
      exact ih
    | false =>
      rw [spaced_cons hd, List.getLast?_append_cons, List.getLast?_cons]
      cases hlast : (spaced (some d) false cs).getLast? with
      | none =>
        rintro _ ⟨⟩
        exact hd
      | some l =>
        rintro _ ⟨⟩
        exact ih l hlast

/-! ### Parts of a text -/

/-- The character written last behind a text. -/
def lastWritten (last : Option Char) (cs : List Char) : Option Char :=
  (cs.filter (!isBlank ·)).getLast?.or last

/-- There are blanks at the end of a text. -/
def gapBehind (gap : Bool) (cs : List Char) : Bool :=
  cs.getLast?.elim gap isBlank

theorem lastWritten_cons_blank (h : isBlank c = true) (last : Option Char) (cs : List Char) :
    lastWritten last (c :: cs) = lastWritten last cs := by
  rw [lastWritten, List.filter_cons_of_neg (by simp [h]), lastWritten]

theorem lastWritten_cons (h : isBlank c = false) (last : Option Char) (cs : List Char) :
    lastWritten last (c :: cs) = lastWritten (some c) cs := by
  rw [lastWritten, List.filter_cons_of_pos (by simp [h]), List.getLast?_cons, lastWritten]
  cases (cs.filter (!isBlank ·)).getLast? <;> rfl

theorem gapBehind_cons (c : Char) (gap : Bool) (cs : List Char) :
    gapBehind gap (c :: cs) = gapBehind (isBlank c) cs := by
  rw [gapBehind, List.getLast?_cons, gapBehind]
  cases cs.getLast? <;> rfl

/-- **The parts of a text** are written one behind the other. -/
theorem spaced_append (last : Option Char) (gap : Bool) (cs ds : List Char) :
    spaced last gap (cs ++ ds) =
      spaced last gap cs ++ spaced (lastWritten last cs) (gapBehind gap cs) ds := by
  -- the state behind the first part is found one character at a time, as it is written
  induction cs generalizing last gap with
  | nil => rfl
  | cons c cs ih =>
    rw [List.cons_append, gapBehind_cons]
    cases h : isBlank c with
    | true =>
      rw [spaced_cons_blank h, spaced_cons_blank h, lastWritten_cons_blank h]
      exact ih last true
    | false =>
      rw [spaced_cons h, spaced_cons h, lastWritten_cons h, ih, List.append_assoc,
        List.cons_append]

/-! ### Blanks -/

theorem spaced_of_blanks (h : ∀ c ∈ cs, isBlank c = true) (last : Option Char) (gap : Bool) :
    spaced last gap cs = [] := by
  induction cs generalizing gap with
  | nil => rfl
  | cons c cs ih =>
    obtain ⟨hc, hcs⟩ := List.forall_mem_cons.mp h
    rw [spaced_cons_blank hc, ih hcs]

/-- Blanks in front do not count. -/
theorem spaced_none (gap : Bool) (cs : List Char) : spaced none gap cs = spaced none false cs := by
  cases cs with
  | nil => rfl
  | cons c cs =>
    cases h : isBlank c with
    | true => rw [spaced_cons_blank h, spaced_cons_blank h]
    | false => simp [spaced_cons h]

theorem lastWritten_of_blanks (h : ∀ c ∈ cs, isBlank c = true) : lastWritten last cs = last := by
  rw [lastWritten, List.filter_eq_nil_iff.mpr (by simpa using h)]
  rfl

theorem uppercase_append (cs ds : List Char) :
    uppercase (cs ++ ds) = uppercase cs ++ uppercase ds :=
  List.flatMap_append

theorem uppercase_cons_of_not_isWordChar (h : isWordChar c = false) (cs : List Char) :
    uppercase (c :: cs) = c :: uppercase cs := by
  rw [uppercase, List.flatMap_cons, uppercaseChar_of_not_isWordChar h]
  rfl

theorem uppercase_cons_blank (h : isBlank c = true) (cs : List Char) :
    uppercase (c :: cs) = c :: uppercase cs :=
  uppercase_cons_of_not_isWordChar (by simp [isWordChar, h]) cs

theorem uppercase_of_blanks (h : ∀ c ∈ cs, isBlank c = true) : uppercase cs = cs := by
  induction cs with
  | nil => rfl
  | cons c cs ih =>
    obtain ⟨hc, hcs⟩ := List.forall_mem_cons.mp h
    rw [uppercase_cons_blank hc, ih hcs]

/-- **Blanks at the ends** of a type do not count. -/
theorem toList_canonical (s : String) :
    (canonical s).toList = spaced none false (uppercase s.toList) := by
  obtain ⟨front, behind, hfront, hbehind, hs⟩ := exists_eq_append_trim s.toList
  rw [canonical, String.toList_ofList]
  refine Eq.symm ((congrArg (fun cs => spaced none false (uppercase cs)) hs).trans ?_)
  rw [uppercase_append, uppercase_append, uppercase_of_blanks hfront, uppercase_of_blanks hbehind,
    spaced_append, spaced_of_blanks hfront, lastWritten_of_blanks hfront, List.nil_append,
    spaced_append, spaced_of_blanks hbehind, List.append_nil, spaced_none]

/-! ### Words -/

theorem spaced_of_nonblank (h : ∀ c ∈ cs, isBlank c = false) (last : Option Char) :
    spaced last false cs = cs := by
  induction cs generalizing last with
  | nil => rfl
  | cons c cs ih =>
    obtain ⟨hc, hcs⟩ := List.forall_mem_cons.mp h
    rw [spaced_cons hc, ih hcs]
    rfl

/-- What is written depends on the character written last only through the blanks that are kept
behind it. -/
theorem spaced_some_congr {l l' : Char} (h : opensUp l = opensUp l') (gap : Bool)
    (cs : List Char) : spaced (some l) gap cs = spaced (some l') gap cs := by
  induction cs generalizing gap with
  | nil => rfl
  | cons c cs ih =>
    cases hc : isBlank c with
    | true => rw [spaced_cons_blank hc, spaced_cons_blank hc, ih]
    | false => rw [spaced_cons hc, spaced_cons hc, Option.any_some, Option.any_some, h]

/-- How a text is written behind a word or a closing parenthesis. -/
def following (cs : List Char) : List Char :=
  spaced (some ')') false (uppercase cs)

/-- **A text behind a word** or a closing parenthesis, if blanks are between them. -/
theorem spaced_append_following (hlast : (lastWritten last cs).any (!opensUp ·) = true)
    (hds : ∀ c ∈ ds.head?, isBlank c = true) :
    spaced last gap (cs ++ uppercase ds) = spaced last gap cs ++ following ds := by
  obtain ⟨l, hl, hopens⟩ := (Option.any_eq_true _ _).mp hlast
  rw [spaced_append, hl, following]
  congr 1
  cases ds with
  | nil => rfl
  | cons c ds =>
    have hc : isBlank c = true := hds c rfl
    rw [uppercase_cons_blank hc, spaced_cons_blank hc, spaced_cons_blank hc]
    refine spaced_some_congr ?_ true _
    rwa [Bool.not_eq_true'] at hopens

theorem lastWritten_any (h : ∀ c ∈ cs, opensUp c = false)
    (hlast : (∃ c ∈ cs, isBlank c = false) ∨ last.any (!opensUp ·) = true) :
    (lastWritten last cs).any (!opensUp ·) = true := by
  rw [lastWritten]
  cases hget : (cs.filter (!isBlank ·)).getLast? with
  | none =>
    refine hlast.resolve_left ?_
    rintro ⟨c, hc, hblank⟩
    have hnone := List.filter_eq_nil_iff.mp (List.getLast?_eq_none_iff.mp hget) c hc
    simp [hblank] at hnone
  | some l =>
    have hl := List.mem_of_mem_filter (List.mem_of_getLast? hget)
    simp [h l hl]

/-! ### Texts without marks -/

theorem opensUp_of_closesUp (h : closesUp c = false) : opensUp c = false := by
  simp only [closesUp, opensUp, Bool.or_eq_false_iff] at h ⊢
  exact ⟨h.1.1.1, h.1.2⟩

/-- There is no mark in the upper case of a text without marks. -/
theorem closesUp_of_mem_uppercase (h : ∀ c ∈ cs, closesUp c = false) :
    ∀ c ∈ uppercase cs, closesUp c = false := by
  intro u hu
  obtain ⟨c, hc, huc⟩ := List.mem_flatMap.mp hu
  cases hblank : isBlank c with
  | true =>
    rw [uppercaseChar_of_not_isWordChar (by simp [isWordChar, hblank])] at huc
    rw [List.mem_singleton.mp huc]
    exact h c hc
  | false =>
    have hword : isWordChar c = true := isWordChar_eq_true_iff.mpr ⟨hblank, h c hc⟩
    exact (isWordChar_eq_true_iff.mp (isWordChar_of_mem_uppercaseChar hword huc)).2

theorem closesUp_of_mem_spaced (h : ∀ c ∈ cs, closesUp c = false) :
    ∀ c ∈ spaced last gap (uppercase cs), closesUp c = false := by
  intro c hc
  rcases eq_space_or_mem_of_mem_spaced hc with rfl | hc
  · rfl
  · exact closesUp_of_mem_uppercase h c hc

theorem isWordChar_of_mem_uppercase (h : ∀ c ∈ cs, isWordChar c = true) :
    ∀ c ∈ uppercase cs, isWordChar c = true := by
  intro u hu
  obtain ⟨c, hc, huc⟩ := List.mem_flatMap.mp hu
  exact isWordChar_of_mem_uppercaseChar (h c hc) huc

/-- There is a word in the upper case of a text with a word. -/
theorem exists_isBlank_uppercase (h : ∀ c ∈ cs, closesUp c = false)
    (hword : ∃ c ∈ cs, isBlank c = false) : ∃ c ∈ uppercase cs, isBlank c = false := by
  obtain ⟨c, hc, hblank⟩ := hword
  obtain ⟨u, hu⟩ := List.exists_mem_of_ne_nil _ (uppercaseChar_ne_nil c)
  have huword := isWordChar_of_mem_uppercaseChar (isWordChar_eq_true_iff.mpr ⟨hblank, h c hc⟩) hu
  exact ⟨u, List.mem_flatMap.mpr ⟨c, hc, hu⟩, (isWordChar_eq_true_iff.mp huword).1⟩

/-- There is a space behind a word, if there is anything. -/
theorem head?_spaced (h : ∀ c ∈ cs, closesUp c = false) :
    ∀ c ∈ (spaced (some ')') true cs).head?, isBlank c = true := by
  induction cs with
  | nil => rintro _ ⟨⟩
  | cons c cs ih =>
    obtain ⟨hc, hcs⟩ := List.forall_mem_cons.mp h
    cases hblank : isBlank c with
    | true =>
      rw [spaced_cons_blank hblank]
      exact ih hcs
    | false =>
      rw [spaced_cons hblank, hc]
      rintro _ ⟨⟩
      rfl

theorem head?_following (h : ∀ c ∈ cs, closesUp c = false)
    (hhead : ∀ c ∈ cs.head?, isBlank c = true) :
    ∀ c ∈ (following cs).head?, isBlank c = true := by
  cases cs with
  | nil => rintro _ ⟨⟩
  | cons c cs =>
    have hc : isBlank c = true := hhead c rfl
    rw [following, uppercase_cons_blank hc, spaced_cons_blank hc]
    exact head?_spaced (closesUp_of_mem_uppercase (List.forall_mem_cons.mp h).2)

/-- **A text behind a name**, if blanks are between them. -/
theorem spaced_name_append (h : ∀ c ∈ cs, closesUp c = false) (hword : ∃ c ∈ cs, isBlank c = false)
    (hds : ∀ c ∈ ds.head?, isBlank c = true) :
    spaced none false (uppercase (cs ++ ds)) =
      spaced none false (uppercase cs) ++ following ds := by
  rw [uppercase_append]
  refine spaced_append_following (lastWritten_any ?_ ?_) hds
  · exact fun c hc => opensUp_of_closesUp (closesUp_of_mem_uppercase h c hc)
  · exact Or.inl (exists_isBlank_uppercase h hword)

/-- Blanks and words, and a text behind them. -/
theorem following_append (h : ∀ c ∈ cs, closesUp c = false)
    (hds : ∀ c ∈ ds.head?, isBlank c = true) :
    following (cs ++ ds) = following cs ++ following ds := by
  rw [following, uppercase_append]
  refine spaced_append_following (lastWritten_any ?_ (Or.inr rfl)) hds
  exact fun c hc => opensUp_of_closesUp (closesUp_of_mem_uppercase h c hc)

/-- A word behind a word. -/
theorem spaced_word (h : ∀ c ∈ word, isWordChar c = true) (hne : word ≠ []) :
    spaced (some ')') true word = ' ' :: word := by
  obtain ⟨c, word, rfl⟩ := List.exists_cons_of_ne_nil hne
  obtain ⟨hc, hword⟩ := List.forall_mem_cons.mp h
  obtain ⟨hblank, hmark⟩ := isWordChar_eq_true_iff.mp hc
  rw [spaced_cons hblank, hmark,
    spaced_of_nonblank fun c hc => (isWordChar_eq_true_iff.mp (hword c hc)).1]
  rfl

theorem uppercase_ne_nil (hne : word ≠ []) : uppercase word ≠ [] := by
  obtain ⟨c, word, rfl⟩ := List.exists_cons_of_ne_nil hne
  rw [uppercase, List.flatMap_cons]
  exact List.append_ne_nil_of_left_ne_nil (uppercaseChar_ne_nil c) _

/-- Words, each with a space in front of it. -/
def spacedWords (words : List (List Char)) : List Char :=
  words.flatMap (' ' :: ·)

theorem head?_spacedWords (words : List (List Char)) :
    ∀ c ∈ (spacedWords words).head?, isBlank c = true := by
  cases words with
  | nil => rintro _ ⟨⟩
  | cons word words => rintro _ ⟨⟩; rfl

/-- **Words behind a word.** -/
theorem following_spacedWords {words : List (List Char)}
    (h : ∀ word ∈ words, word ≠ [] ∧ ∀ c ∈ word, isWordChar c = true) :
    following (spacedWords words) = spacedWords (words.map uppercase) := by
  induction words with
  | nil => rfl
  | cons word words ih =>
    obtain ⟨⟨hne, hword⟩, hwords⟩ := List.forall_mem_cons.mp h
    have hmark : ∀ c ∈ ' ' :: word, closesUp c = false := List.forall_mem_cons.mpr
      ⟨rfl, fun c hc => (isWordChar_eq_true_iff.mp (hword c hc)).2⟩
    have hfirst : following (' ' :: word) = ' ' :: uppercase word := by
      rw [following, uppercase_cons_blank rfl, spaced_cons_blank rfl]
      exact spaced_word (isWordChar_of_mem_uppercase hword) (uppercase_ne_nil hne)
    have hcons (first : List Char) (rest : List (List Char)) :
        spacedWords (first :: rest) = (' ' :: first) ++ spacedWords rest := rfl
    rw [hcons, following_append hmark (head?_spacedWords words), hfirst, ih hwords, List.map_cons,
      hcons]

/-! ### Texts in parentheses -/

/-- A digit or a comma. -/
def isModifierChar (c : Char) : Bool :=
  c.isDigit || c == ','

theorem toNat_of_isModifierChar (h : isModifierChar c = true) : 44 ≤ c.toNat ∧ c.toNat ≤ 57 := by
  have hcode : (48 ≤ c.toNat ∧ c.toNat ≤ 57) ∨ c = ',' := by
    simpa [isModifierChar, Char.isDigit, UInt32.le_iff_toNat_le] using h
  rcases hcode with hcode | rfl
  · omega
  · decide

theorem uppercase_append_of_isModifierChar (h : ∀ c ∈ cs, isModifierChar c = true)
    (ds : List Char) : uppercase (cs ++ ds) = cs ++ uppercase ds := by
  induction cs with
  | nil => rfl
  | cons c cs ih =>
    obtain ⟨hc, hcs⟩ := List.forall_mem_cons.mp h
    obtain ⟨hfirst, hlast⟩ := toNat_of_isModifierChar hc
    have hupper : uppercaseChar c = [c] := by
      rw [uppercaseChar_of_lt (by omega), if_neg (by omega)]
    rw [List.cons_append, uppercase, List.flatMap_cons, hupper, ← uppercase, ih hcs]
    rfl

theorem isBlank_of_isModifierChar (h : isModifierChar c = true) : isBlank c = false := by
  obtain ⟨hfirst, hlast⟩ := toNat_of_isModifierChar h
  simp only [isBlank, Bool.or_eq_false_iff, Bool.and_eq_false_iff, decide_eq_false_iff_not,
    beq_eq_false_iff_ne]
  omega

/-- **A text in parentheses** is written as it stands, whatever is in front of it. -/
theorem spaced_modifier (h : ∀ c ∈ cs, isModifierChar c = true) (last : Option Char) (gap : Bool)
    (ds : List Char) :
    spaced last gap (uppercase ('(' :: (cs ++ ')' :: ds))) =
      '(' :: (cs ++ ')' :: following ds) := by
  have hgap : gapBehind false cs = false := by
    rw [gapBehind]
    cases hlast : cs.getLast? with
    | none => rfl
    | some c => exact isBlank_of_isModifierChar (h c (List.mem_of_getLast? hlast))
  rw [uppercase_cons_of_not_isWordChar rfl, uppercase_append_of_isModifierChar h,
    uppercase_cons_of_not_isWordChar rfl, spaced_cons rfl, spaced_append,
    spaced_of_nonblank fun c hc => isBlank_of_isModifierChar (h c hc), hgap, spaced_cons rfl,
    following]
  simp [closesUp]

end AdditiveSchema.TypeName
