import AdditiveSchema.Json.Number
import AdditiveSchema.Json.Text

/-!
# JSON values without parts

The gaps between the parts of a JSON text, and the values that hold no others: the three words,
numbers and strings. The first character of a value tells which one it is.
-/

namespace AdditiveSchema.Json

/-- The characters that may stand between the parts of a text. -/
def isGap (c : Char) : Bool :=
  c == ' ' || c == '\t' || c == '\n' || c == '\r'

/-- The text without the gap at its front. -/
def skipGap (cs : List Char) : List Char :=
  cs.dropWhile isGap

/-- Reads the characters that complete the word of a value. -/
def readWord (value : Json) : (word text : List Char) → Except Fault (Json × List Char)
  | [], cs => .ok (value, cs)
  | _ :: _, [] => .error (.before .endInValue [])
  | w :: ws, c :: cs =>
    if w = c then readWord value ws cs else .error (.first .expectedWord (c :: cs))

/-- The value without parts at the front of the text. -/
def readScalar : List Char → Except Fault (Json × List Char)
  | 'n' :: cs => readWord .null ['u', 'l', 'l'] cs
  | 't' :: cs => readWord (.bool true) ['r', 'u', 'e'] cs
  | 'f' :: cs => readWord (.bool false) ['a', 'l', 's', 'e'] cs
  | '"' :: cs => (readString cs).map fun (chars, rest) => (.string (String.ofList chars), rest)
  | cs =>
    if cs.head?.any fun c => c == '-' || c.isDigit then readNumber cs
    else .error (.first .expectedValue cs)

theorem readWord_length {value found : Json} {word cs rest : List Char}
    (h : readWord value word cs = .ok (found, rest)) : rest.length ≤ cs.length := by
  induction word generalizing cs with
  | nil =>
    cases h
    exact Nat.le_refl _
  | cons w ws ih =>
    cases cs with
    | nil => cases h
    | cons c cs =>
      simp only [readWord] at h
      split at h
      · exact Nat.le_succ_of_le (ih h)
      · cases h

/-- A value takes at least one character. -/
theorem readScalar_length {cs rest : List Char} {value : Json}
    (h : readScalar cs = .ok (value, rest)) : rest.length < cs.length := by
  unfold readScalar at h
  split at h
  · exact Nat.lt_succ_of_le (readWord_length h)
  · exact Nat.lt_succ_of_le (readWord_length h)
  · exact Nat.lt_succ_of_le (readWord_length h)
  · obtain ⟨⟨chars, behind⟩, hs, h⟩ := Except.map_eq_ok_iff.1 h
    cases h
    exact Nat.lt_succ_of_lt (readString_length hs)
  · split at h
    · exact readNumber_length h
    · cases h

end AdditiveSchema.Json
