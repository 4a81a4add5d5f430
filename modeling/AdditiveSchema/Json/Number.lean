import AdditiveSchema.Except
import AdditiveSchema.Json.Basic
import AdditiveSchema.Json.Error
import AdditiveSchema.Text.Numeral

/-!
# JSON numbers

A number is read as a significand of one machine word and a decimal exponent: digits that do not
fit the word any more only count towards the exponent. A number whose product of significand and
power of ten is beyond the largest double is refused.
-/

namespace AdditiveSchema.Json

open AdditiveSchema.Text

/-- Takes digits onto the significand while the word holds them. Answers with the digits that
are left. -/
def accumulate (significand : Nat) : List Char → Nat × List Char
  | [] => (significand, [])
  | d :: ds =>
    let next := 10 * significand + digitValue d
    if maxWord < next then (significand, d :: ds) else accumulate next ds

/-- The nearest number with at most 53 binary digits, a tie going to the even one. -/
def roundToDouble (n : Nat) : Nat :=
  let shift := n.log2 + 1 - 53
  let unit := 1 <<< shift
  let quotient := n / unit
  let remainder := n % unit
  let up := unit < 2 * remainder || (unit == 2 * remainder && quotient % 2 == 1)
  (if up then quotient + 1 else quotient) * unit

/-- The least magnitude that no double is nearest to. -/
def doubleLimit : Nat := 1 <<< 1024 - 1 <<< 970

/-- The product of a significand and a power of ten, each a double, is no double any more. -/
def isOutOfRange (significand : Nat) (exponent : Int) : Bool :=
  significand != 0 && 0 ≤ exponent &&
    (308 < exponent ||
      doubleLimit ≤ roundToDouble significand * roundToDouble (Nat.pow 10 exponent.toNat))

/-- The greatest exponent that is counted. -/
def maxExponent : Nat := 1 <<< 31 - 1

/-- What stands behind the digit with which an exponent exceeds `maxExponent`. -/
def behindOverflow? (value : Nat) : List Char → Option (List Char)
  | [] => none
  | c :: cs =>
    if c.isDigit then
      let next := 10 * value + digitValue c
      if maxExponent < next then some cs else behindOverflow? next cs
    else none

/-- The digits at the front of the text, of which there must be one. -/
def readDigits1 (cs : List Char) : Except Fault (List Char × List Char) :=
  match cs.takeWhile Char.isDigit with
  | [] => .error (if cs.isEmpty then .before .endInValue [] else .first .invalidNumber cs)
  | digits => .ok (digits, cs.dropWhile Char.isDigit)

/-- The digits in front of the point. A zero in front stands alone. -/
def readWhole (cs : List Char) : Except Fault (List Char × List Char) :=
  match cs, readDigits1 cs with
  | '0' :: behind, .ok (_ :: _ :: _, _) => .error (.first .invalidNumber behind)
  | _, read => read

/-- The digits behind a decimal point. A point needs at least one. -/
def readFraction : List Char → Except Fault (List Char × List Char)
  | '.' :: cs => readDigits1 cs
  | cs => .ok ([], cs)

/-- The sign at the front of the text, and the text behind it. -/
def readSign : List Char → Bool × List Char
  | '-' :: cs => (true, cs)
  | '+' :: cs => (false, cs)
  | cs => (false, cs)

/-- The exponent behind its mark, for a significand that may be zero. A mark needs at least one
digit. -/
def readExponent (isZero : Bool) (cs : List Char) : Except Fault (Int × List Char) :=
  match cs with
  | [] => .ok (0, [])
  | mark :: behind =>
    if mark = 'e' ∨ mark = 'E' then do
      let (negative, unsigned) := readSign behind
      let (digits, rest) ← readDigits1 unsigned
      let value : Int := digitsValue digits
      match if negative || isZero then none else behindOverflow? 0 unsigned with
      | some left => .error (.before .numberOutOfRange left)
      | none => .ok (if negative then -value else value, rest)
    else .ok (0, cs)

/-- A number without sign. -/
def readUnsigned (negative : Bool) (cs : List Char) : Except Fault (Json × List Char) := do
  let (whole, behindWhole) ← readWhole cs
  let (fraction, behindFraction) ← readFraction behindWhole
  let (upper, overflow) := accumulate 0 whole
  let (significand, ignored) := accumulate upper fraction
  let (written, rest) ← readExponent (significand == 0) behindFraction
  let exponent := written + overflow.length - (fraction.length - ignored.length : Nat)
  if isOutOfRange significand exponent then .error (.before .numberOutOfRange rest)
  else .ok (.number (if negative then -(significand : Int) else significand) exponent, rest)

/-- The number at the front of the text. -/
def readNumber : List Char → Except Fault (Json × List Char)
  | '-' :: cs => readUnsigned true cs
  | cs => readUnsigned false cs

/-! ### What is left is shorter -/

theorem length_dropWhile_le {α : Type} (p : α → Bool) (xs : List α) :
    (xs.dropWhile p).length ≤ xs.length :=
  (List.dropWhile_sublist p).length_le

theorem length_dropWhile_lt {α : Type} {p : α → Bool} {xs : List α}
    (h : xs.takeWhile p ≠ []) : (xs.dropWhile p).length < xs.length := by
  cases xs with
  | nil => simp at h
  | cons x xs =>
    by_cases hx : p x
    · have := length_dropWhile_le p xs
      simp only [List.dropWhile_cons, hx, List.length_cons, if_true]
      omega
    · simp [hx] at h

theorem readDigits1_length {cs digits rest : List Char}
    (h : readDigits1 cs = .ok (digits, rest)) : rest.length < cs.length := by
  unfold readDigits1 at h
  split at h
  · cases h
  · rename_i hne
    cases h
    exact length_dropWhile_lt hne

theorem readWhole_length {cs digits rest : List Char}
    (h : readWhole cs = .ok (digits, rest)) : rest.length < cs.length := by
  unfold readWhole at h
  split at h
  · cases h
  · exact readDigits1_length h

theorem readFraction_length {cs digits rest : List Char}
    (h : readFraction cs = .ok (digits, rest)) : rest.length ≤ cs.length := by
  unfold readFraction at h
  split at h
  · exact Nat.le_of_lt (Nat.lt_succ_of_lt (readDigits1_length h))
  · cases h
    exact Nat.le_refl _

theorem readSign_length (cs : List Char) : (readSign cs).2.length ≤ cs.length := by
  unfold readSign
  split <;> simp

theorem readExponent_length {isZero : Bool} {cs rest : List Char} {e : Int}
    (h : readExponent isZero cs = .ok (e, rest)) : rest.length ≤ cs.length := by
  unfold readExponent at h
  split at h
  · cases h
    exact Nat.le_refl _
  · rename_i mark behind
    split at h
    · obtain ⟨⟨digits, last⟩, hd, h⟩ := Except.bind_eq_ok_iff.1 h
      have h1 := readSign_length behind
      have h2 : last.length < (readSign behind).2.length := readDigits1_length hd
      simp only at h
      split at h <;> cases h
      simp only [List.length_cons]
      omega
    · cases h
      exact Nat.le_refl _

theorem readUnsigned_length {negative : Bool} {cs rest : List Char} {value : Json}
    (h : readUnsigned negative cs = .ok (value, rest)) : rest.length < cs.length := by
  obtain ⟨⟨whole, behindWhole⟩, hw, h⟩ := Except.bind_eq_ok_iff.1 h
  obtain ⟨⟨fraction, behindFraction⟩, hf, h⟩ := Except.bind_eq_ok_iff.1 h
  obtain ⟨⟨written, last⟩, he, h⟩ := Except.bind_eq_ok_iff.1 h
  have h1 := readWhole_length hw
  have h2 := readFraction_length hf
  have h3 := readExponent_length he
  simp only at h
  split at h <;> cases h
  exact Nat.lt_of_le_of_lt (Nat.le_trans h3 h2) h1

/-- A number takes at least one character. -/
theorem readNumber_length {cs rest : List Char} {value : Json}
    (h : readNumber cs = .ok (value, rest)) : rest.length < cs.length := by
  unfold readNumber at h
  split at h
  · exact Nat.lt_succ_of_lt (readUnsigned_length h)
  · exact readUnsigned_length h

end AdditiveSchema.Json
