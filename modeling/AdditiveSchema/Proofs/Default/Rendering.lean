import AdditiveSchema.Proofs.Default.Closing
import AdditiveSchema.Proofs.Text.Blanks
import AdditiveSchema.Proofs.Text.Numeral

/-!
# Rendered defaults

MySQL and SQLite take a literal as a default, and anything else only in parentheses. A default whose
quotes are closed and whose parentheses match is rendered as one of them, with one exception: the
names of infinity and of what is no number are numerals, so they are rendered as they stand,
although they are no literals.

## Main definitions

* `DefaultExpr.IsSettled` : a literal or a closed text in parentheses.

## Main results

* `DefaultExpr.isSettled_or_isNamedNumeral` : what is taken for a literal.
* `Dialect.renderDefault_isSettled_iff` : which defaults are rendered so.
-/

namespace AdditiveSchema

namespace DefaultExpr

open AdditiveSchema.Text

/-- A default that MySQL and SQLite take: a number, a quoted text, a word that is a literal, or a
closed text in parentheses. -/
inductive IsSettled : List Char → Prop
  | number {cs : List Char} (h : IsNumber cs) : IsSettled cs
  | text (s : String) : IsSettled (enclose '\'' s).toList
  | word {s : String} (h : asciiUpper s ∈ literalWords) : IsSettled s.toList
  | group {inner : List Char} (h : Closed inner) : IsSettled ('(' :: (inner ++ [')']))

variable {cs : List Char} {e : String}

/-! ### Literals -/

/-- **What is taken for a literal** is one, or the name of a number. -/
theorem isSettled_or_isNamedNumeral (h : isLiteral e = true) :
    IsSettled (trim e.toList) ∨ IsNamedNumeral (trim e.toList) := by
  unfold isLiteral at h
  split at h
  · cases h
  · rename_i c cs hcs
    rw [hcs]
    rcases Bool.or_eq_true_iff.mp h with hnumeral | h
    · exact (isNumber_or_isNamedNumeral hnumeral).imp_left .number
    left
    split at h
    · rename_i hc
      rcases hc with rfl | rfl
      · obtain ⟨s, hs⟩ := exists_enclose_of_closesAtEnd h
        exact hs ▸ .text s
      · obtain ⟨inner, hinner, rfl⟩ := exists_closed_of_closesAtEnd h
        exact .group hinner
    · have hword := IsSettled.word (List.contains_iff_mem.mp h)
      rwa [String.toList_ofList] at hword

theorem isLiteral_of_isNamedNumeral (h : IsNamedNumeral (trim e.toList)) : isLiteral e = true := by
  unfold isLiteral
  split
  · rename_i hnil
    rw [hnil] at h
    exact absurd h (by decide)
  · rename_i hcs
    rw [← hcs, h.isNumeral, Bool.true_or]

/-! ### Names of numbers -/

theorem toLower_of_isBlank {c : Char} (h : isBlank c = true) : c.toLower = c := by
  unfold Char.toLower
  refine dif_neg fun hupper => ?_
  have hletter : 65 ≤ c.toNat ∧ c.toNat ≤ 90 := by
    simpa [UInt32.le_iff_toNat_le] using hupper
  simp only [isBlank, Bool.or_eq_true, Bool.and_eq_true, decide_eq_true_eq, beq_iff_eq] at h
  omega

/-- The name of a number in upper case is no word with a meaning of its own, because none of them
ends in the same letter. -/
theorem asciiUpper_notMem_of_isNamedNumeral {s : String} (h : IsNamedNumeral s.toList) :
    asciiUpper s ∉ literalWords ++ currentTimes := by
  have hnone : ∀ word ∈ literalWords ++ currentTimes,
      word.toList.getLast? ∉ IsNamedNumeral.lastLetters.map fun c => some c.toUpper := by
    decide
  obtain ⟨c, hc, hlast⟩ := h.exists_getLast?
  intro hmem
  refine hnone _ hmem (List.mem_map.mpr ⟨c, hc, ?_⟩)
  rw [asciiUpper, String.toList_ofList, List.getLast?_map, hlast, Option.map_some]

/-- **The name of a number** is neither a literal nor in parentheses. -/
theorem not_isSettled_of_isNamedNumeral (h : IsNamedNumeral cs) : ¬IsSettled cs := by
  have hhead : ∀ spelling ∈ IsNamedNumeral.spellings,
      spelling.head? ≠ some '\'' ∧ spelling.head? ≠ some '(' := by decide
  intro hsettled
  cases hsettled with
  | number hnumber => exact h.not_isNumber hnumber
  | text s =>
    have hmem := h.map_toLower_mem
    rw [toList_enclose, List.map_cons] at hmem
    exact (hhead _ hmem).1 rfl
  | word hword => exact asciiUpper_notMem_of_isNamedNumeral h (List.mem_append_left _ hword)
  | group hinner =>
    have hmem := h.map_toLower_mem
    rw [List.map_cons] at hmem
    exact (hhead _ hmem).2 rfl

/-- There is no blank in the name of a number. -/
theorem filter_of_isNamedNumeral (h : IsNamedNumeral cs) : cs.filter (!isBlank ·) = cs := by
  have hnone : ∀ spelling ∈ IsNamedNumeral.spellings, spelling.all (!isBlank ·) = true := by decide
  refine List.filter_eq_self.mpr fun c hc => ?_
  have hlower := List.all_eq_true.mp (hnone _ h.map_toLower_mem) _ (List.mem_map_of_mem hc)
  by_contra hblank
  rw [toLower_of_isBlank (by simpa using hblank)] at hlower
  exact hblank hlower

/-- The name of a number is not one of the ways to write the current time. -/
theorem not_isCurrentTime_of_isNamedNumeral (h : IsNamedNumeral (trim e.toList)) :
    isCurrentTime e = false := by
  have htext : (withoutBlanks e).toList = trim e.toList := by
    rw [withoutBlanks, String.toList_ofList, ← filter_trim, filter_of_isNamedNumeral h]
  rw [Bool.eq_false_iff, isCurrentTime]
  intro htime
  exact asciiUpper_notMem_of_isNamedNumeral (htext ▸ h)
    (List.mem_append_right _ (List.contains_iff_mem.mp htime))

/-! ### Parentheses -/

theorem trim_parenthesized (cs : List Char) :
    trim ('(' :: (cs ++ [')'])) = '(' :: (cs ++ [')']) := by
  refine trim_eq_self (fun c hc => ?_) (fun c hc => ?_)
  · obtain rfl : '(' = c := Option.mem_some.mp hc
    rfl
  · rw [← List.cons_append, List.getLast?_append_cons, List.getLast?_singleton] at hc
    obtain rfl : ')' = c := Option.mem_some.mp hc
    rfl

theorem isSettled_trim_group (h : Closed cs) : IsSettled (trim ('(' :: (cs ++ [')']))) := by
  rw [trim_parenthesized]
  exact .group h

/-- A name in front of a quoted text in parentheses. -/
def call (name argument : List Char) : List Char :=
  name ++ '(' :: '\'' :: (double '\'' argument ++ ['\'', ')'])

theorem closed_call {name argument : List Char} (hname : name.all isPlain = true) :
    Closed (call name argument) := by
  have hargument : Closed ('(' :: ('\'' :: (double '\'' argument ++ ['\'']) ++ [')'])) :=
    .group (.quoted argument .nil) .nil
  exact Closed.plain_append (by simpa using hargument) hname

/-- The current time in the words of a dialect other than Postgres. -/
theorem isSettled_currentTime {d : Dialect} (hd : d ≠ .postgres) (h : isCurrentTime e = true) :
    IsSettled (trim (d.renderDefault e).toList) := by
  cases d with
  | postgres => exact absurd rfl hd
  | mysql =>
    have hword : IsSettled "CURRENT_TIMESTAMP".toList := .word (by decide)
    rwa [Dialect.renderDefault, if_pos h]
  | sqlite =>
    have htext : "(DATETIME('now'))".toList =
        '(' :: (call "DATETIME".toList "now".toList ++ [')']) := by decide
    rw [Dialect.renderDefault, if_pos h, htext]
    exact isSettled_trim_group (closed_call (by decide))

theorem renderDefault_of_not_isCurrentTime {d : Dialect} (hd : d ≠ .postgres)
    (h : isCurrentTime e = false) : d.renderDefault e = parenthesized e := by
  have hfalse : ¬isCurrentTime e = true := Bool.eq_false_iff.mp h
  cases d with
  | postgres => exact absurd rfl hd
  | mysql => rw [Dialect.renderDefault, if_neg hfalse]
  | sqlite => rw [Dialect.renderDefault, if_neg hfalse]

end DefaultExpr

open AdditiveSchema.Text DefaultExpr

/-- **Rendered defaults.** A default whose quotes are closed and whose parentheses match is rendered
as a literal or as one closed text in parentheses, unless it is the name of a number. -/
theorem Dialect.renderDefault_isSettled_iff {d : Dialect} (hd : d ≠ .postgres) {e : String}
    (h : Closed e.toList) :
    IsSettled (trim (d.renderDefault e).toList) ↔ ¬IsNamedNumeral (trim e.toList) := by
  refine ⟨fun hsettled hname => ?_, fun hname => ?_⟩
  · -- the name of a number is rendered as it stands
    rw [renderDefault_of_not_isCurrentTime hd (not_isCurrentTime_of_isNamedNumeral hname),
      parenthesized, if_pos (isLiteral_of_isNamedNumeral hname)] at hsettled
    exact not_isSettled_of_isNamedNumeral hname hsettled
  cases htime : isCurrentTime e with
  | true => exact isSettled_currentTime hd htime
  | false =>
    rw [renderDefault_of_not_isCurrentTime hd htime, parenthesized]
    split
    · rename_i hliteral
      exact (isSettled_or_isNamedNumeral hliteral).resolve_right hname
    · rw [String.toList_append, String.toList_append, List.append_assoc]
      exact isSettled_trim_group h

/-- A call is put in parentheses. -/
theorem renderDefault_isSettled_iff_lower :
    Dialect.mysql ≠ .postgres ∧ Closed "lower('X')".toList ∧
      Dialect.mysql.renderDefault "lower('X')" = "(lower('X'))" ∧
      IsSettled (trim (Dialect.mysql.renderDefault "lower('X')").toList) := by
  have htext : "lower('X')".toList = call "lower".toList "X".toList := by decide
  have hclosed : Closed "lower('X')".toList := htext ▸ closed_call (by decide)
  have hname : ¬IsNamedNumeral (trim "lower('X')".toList) := by decide
  exact ⟨by decide, hclosed, by decide,
    (Dialect.renderDefault_isSettled_iff (by decide) hclosed).mpr hname⟩

/-- The name of what is no number is taken for a number, so it stays a bare word. -/
theorem renderDefault_leavesWord_nan :
    Closed "nan".toList ∧ ∀ d ∈ [Dialect.mysql, .sqlite],
      d.renderDefault "nan" = "nan" ∧ ¬IsSettled (trim (d.renderDefault "nan").toList) := by
  have hname : IsNamedNumeral (trim "nan".toList) := by decide
  have hkept : ∀ d ∈ [Dialect.mysql, .sqlite], d.renderDefault "nan" = "nan" := by decide
  refine ⟨closed_of_plain (by decide), fun d hd => ⟨hkept d hd, ?_⟩⟩
  rw [hkept d hd]
  exact not_isSettled_of_isNamedNumeral hname

end AdditiveSchema
