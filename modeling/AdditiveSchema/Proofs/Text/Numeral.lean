import AdditiveSchema.Text.Numeral
import Mathlib.Data.List.TakeWhile

/-!
# The grammar of numbers

A numeral is a number as SQL writes it, or else one of the three names for values without digits,
each with an optional sign. No number is one of these names, because each of them ends in a letter
that no number holds.

## Main definitions

* `Text.IsNumber` : an optional sign, digits with an optional point, and an optional exponent.
* `Text.IsNamedNumeral` : an optional sign and a name.

## Main results

* `Text.isNumber_or_isNamedNumeral` : what a numeral is.
* `Text.IsNamedNumeral.not_isNumber` : a name is no number.
-/

namespace AdditiveSchema.Text

/-! ### Numbers -/

/-- Some digits, or none. -/
def AreDigits (cs : List Char) : Prop :=
  ∀ c ∈ cs, c.isDigit = true

/-- An optional sign. -/
inductive IsSign : List Char → Prop
  | absent : IsSign []
  | plus : IsSign ['+']
  | minus : IsSign ['-']

/-- Digits with an optional point at either end of them or between them. -/
inductive IsMantissa : List Char → Prop
  | whole {digits : List Char} (h : AreDigits digits) (hne : digits ≠ []) : IsMantissa digits
  | point {whole fraction : List Char} (hwhole : AreDigits whole) (hfraction : AreDigits fraction)
      (hne : whole ++ fraction ≠ []) : IsMantissa (whole ++ '.' :: fraction)

/-- An optional exponent: its mark, an optional sign and digits. -/
inductive IsExponentPart : List Char → Prop
  | absent : IsExponentPart []
  | present {mark : Char} {sign digits : List Char} (hmark : mark = 'e' ∨ mark = 'E')
      (hsign : IsSign sign) (h : AreDigits digits) (hne : digits ≠ []) :
      IsExponentPart (mark :: (sign ++ digits))

/-- A number: an optional sign, digits with an optional point, and an optional exponent. -/
inductive IsNumber : List Char → Prop
  | mk {sign mantissa exponent : List Char} (hsign : IsSign sign) (hmantissa : IsMantissa mantissa)
      (hexponent : IsExponentPart exponent) : IsNumber (sign ++ (mantissa ++ exponent))

variable {cs : List Char}

theorem areDigits_takeWhile (cs : List Char) : AreDigits (cs.takeWhile Char.isDigit) :=
  fun _ => List.mem_takeWhile_imp

/-- The text behind its sign. -/
def withoutSign : List Char → List Char
  | '+' :: cs => cs
  | '-' :: cs => cs
  | cs => cs

theorem exists_isSign_append (cs : List Char) :
    ∃ sign, IsSign sign ∧ cs = sign ++ withoutSign cs := by
  unfold withoutSign
  split
  · exact ⟨_, .plus, rfl⟩
  · exact ⟨_, .minus, rfl⟩
  · exact ⟨_, .absent, rfl⟩

theorem isExponent_cons (mark : Char) (cs : List Char) :
    isExponent (mark :: cs) = ((mark == 'e' || mark == 'E') &&
      (!(withoutSign cs).isEmpty && (withoutSign cs).all Char.isDigit)) :=
  rfl

theorem isNumeral_eq (cs : List Char) :
    isNumeral cs = (isUnsignedNumeral (withoutSign cs) ||
      namedNumerals.contains (String.ofList ((withoutSign cs).map Char.toLower))) :=
  rfl

theorem isExponentPart_of_isExponent (h : isExponent cs = true) : IsExponentPart cs := by
  cases cs with
  | nil => exact .absent
  | cons mark cs =>
    rw [isExponent_cons] at h
    obtain ⟨sign, hsign, hcs⟩ := exists_isSign_append cs
    obtain ⟨hmark, hne, hdigits⟩ : (mark = 'e' ∨ mark = 'E') ∧ withoutSign cs ≠ [] ∧
        AreDigits (withoutSign cs) := by
      simpa [AreDigits] using h
    rw [hcs]
    exact .present hmark hsign hdigits hne

theorem exists_isMantissa_append (h : isUnsignedNumeral cs = true) :
    ∃ mantissa exponent, IsMantissa mantissa ∧ IsExponentPart exponent ∧
      cs = mantissa ++ exponent := by
  have hwhole := areDigits_takeWhile cs
  have hcs := List.takeWhile_append_dropWhile (p := Char.isDigit) (l := cs)
  unfold isUnsignedNumeral at h
  split at h
  · rename_i rest hrest
    obtain ⟨hne, hexponent⟩ := Bool.and_eq_true_iff.mp h
    refine ⟨_, _, .point hwhole (areDigits_takeWhile rest) ?_,
      isExponentPart_of_isExponent hexponent, ?_⟩
    · simpa [imp_iff_not_or] using hne
    · refine hcs.symm.trans ?_
      rw [hrest, List.append_assoc, List.cons_append, List.takeWhile_append_dropWhile]
  · obtain ⟨hne, hexponent⟩ := Bool.and_eq_true_iff.mp h
    exact ⟨_, _, .whole hwhole (by simpa using hne), isExponentPart_of_isExponent hexponent,
      hcs.symm⟩

/-! ### Names of numbers -/

/-- An optional sign and a name of a value without digits, in any case. -/
def IsNamedNumeral (cs : List Char) : Prop :=
  String.ofList ((withoutSign cs).map Char.toLower) ∈ namedNumerals

instance (cs : List Char) : Decidable (IsNamedNumeral cs) :=
  inferInstanceAs (Decidable (_ ∈ _))

/-- **What a numeral is:** a number or a name. -/
theorem isNumber_or_isNamedNumeral (h : isNumeral cs = true) : IsNumber cs ∨ IsNamedNumeral cs := by
  rw [isNumeral_eq, Bool.or_eq_true] at h
  rcases h with h | h
  · obtain ⟨mantissa, exponent, hmantissa, hexponent, htext⟩ := exists_isMantissa_append h
    obtain ⟨sign, hsign, hcs⟩ := exists_isSign_append cs
    rw [hcs, htext]
    exact Or.inl (.mk hsign hmantissa hexponent)
  · exact Or.inr (List.contains_iff_mem.mp h)

namespace IsNamedNumeral

theorem isNumeral (h : IsNamedNumeral cs) : isNumeral cs = true := by
  rw [isNumeral_eq, List.contains_iff_mem.mpr h, Bool.or_true]

/-- The names with each sign, in lower case. -/
def spellings : List (List Char) :=
  [[], ['+'], ['-']].flatMap fun sign => namedNumerals.map fun name => sign ++ name.toList

theorem map_toLower_mem (h : IsNamedNumeral cs) : cs.map Char.toLower ∈ spellings := by
  obtain ⟨sign, hsign, hcs⟩ := exists_isSign_append cs
  have hlower : cs.map Char.toLower = sign ++ (withoutSign cs).map Char.toLower := by
    refine (congrArg (List.map Char.toLower) hcs).trans ?_
    rw [List.map_append]
    cases hsign <;> rfl
  rw [hlower, spellings, List.mem_flatMap]
  refine ⟨sign, by cases hsign <;> decide, List.mem_map.mpr ⟨_, h, ?_⟩⟩
  rw [String.toList_ofList]

/-- The letters that the names end in, in both cases. -/
def lastLetters : List Char :=
  ['n', 'f', 'y', 'N', 'F', 'Y']

theorem mem_lastLetters_of_toLower {c : Char} (h : c.toLower ∈ ['n', 'f', 'y']) :
    c ∈ lastLetters := by
  unfold Char.toLower at h
  split at h
  · simp only [lastLetters, List.mem_cons, Char.ext_iff] at h ⊢
    grind
  · exact List.mem_append_left ['N', 'F', 'Y'] h

/-- **A name ends in one of these letters.** -/
theorem exists_getLast? (h : IsNamedNumeral cs) : ∃ c ∈ lastLetters, cs.getLast? = some c := by
  have hlast : ∀ spelling ∈ spellings, spelling.getLast? ∈ ['n', 'f', 'y'].map some := by decide
  obtain ⟨lower, hlower, hspelling⟩ := List.mem_map.mp (hlast _ h.map_toLower_mem)
  rw [List.getLast?_map] at hspelling
  obtain ⟨c, hc, rfl⟩ := Option.map_eq_some_iff.mp hspelling.symm
  exact ⟨c, mem_lastLetters_of_toLower hlower, hc⟩

end IsNamedNumeral

/-- The characters of a number. -/
theorem IsNumber.isDigit_or_mem (h : IsNumber cs) {c : Char} (hc : c ∈ cs) :
    c.isDigit = true ∨ c ∈ ['+', '-', '.', 'e', 'E'] := by
  have hsigns {sign : List Char} (hsign : IsSign sign) (hc : c ∈ sign) :
      c ∈ ['+', '-', '.', 'e', 'E'] := by
    cases hsign <;> simp at hc <;> simp [hc]
  obtain ⟨hsign, hmantissa, hexponent⟩ := h
  rcases List.mem_append.mp hc with hc | hc
  · exact Or.inr (hsigns hsign hc)
  rcases List.mem_append.mp hc with hc | hc
  · cases hmantissa with
    | whole hdigits => exact Or.inl (hdigits c hc)
    | point hwhole hfraction =>
      rw [List.mem_append, List.mem_cons] at hc
      rcases hc with hc | rfl | hc
      · exact Or.inl (hwhole c hc)
      · exact Or.inr (by decide)
      · exact Or.inl (hfraction c hc)
  · cases hexponent with
    | absent => cases hc
    | present hmark hsign hdigits =>
      rw [List.mem_cons, List.mem_append] at hc
      rcases hc with rfl | hc | hc
      · rcases hmark with rfl | rfl <;> exact Or.inr (by decide)
      · exact Or.inr (hsigns hsign hc)
      · exact Or.inl (hdigits c hc)

/-- **A name is no number.** -/
theorem IsNamedNumeral.not_isNumber (h : IsNamedNumeral cs) : ¬IsNumber cs := by
  have hnone : (lastLetters.any fun c =>
      c.isDigit || ['+', '-', '.', 'e', 'E'].contains c) = false := by
    decide
  intro hnumber
  obtain ⟨c, hc, hlast⟩ := h.exists_getLast?
  have hother := List.any_eq_false.mp hnone c hc
  simp only [Bool.or_eq_true, List.contains_iff_mem] at hother
  exact hother (hnumber.isDigit_or_mem (List.mem_of_getLast? hlast))

end AdditiveSchema.Text
