import AdditiveSchema.Except
import AdditiveSchema.Json.Error

/-!
# JSON strings

The body of a JSON string, from behind the opening quote to the closing one. Control characters
must be escaped, and an escape of a surrogate must be followed by the escape of its other half.
-/

namespace AdditiveSchema.Json

open AdditiveSchema.Text

/-- The value of a hexadecimal digit. -/
def hexDigit? (c : Char) : Option Nat :=
  if c.isDigit then some (c.toNat - '0'.toNat)
  else if 'a' ≤ c ∧ c ≤ 'f' then some (c.toNat - 'a'.toNat + 10)
  else if 'A' ≤ c ∧ c ≤ 'F' then some (c.toNat - 'A'.toNat + 10)
  else none

/-- The value of four hexadecimal digits. -/
def hexWord? (a b c d : Char) : Option Nat := do
  let a ← hexDigit? a
  let b ← hexDigit? b
  let c ← hexDigit? c
  let d ← hexDigit? d
  return 4096 * a + 256 * b + 16 * c + d

/-- The character that a one-letter escape stands for. -/
def unescape? : Char → Option Char
  | '"' => some '"'
  | '\\' => some '\\'
  | '/' => some '/'
  | 'b' => some '\x08'
  | 'f' => some '\x0C'
  | 'n' => some '\n'
  | 'r' => some '\r'
  | 't' => some '\t'
  | _ => none

/-- The character of a code point that is no surrogate. -/
def scalar? (n : Nat) : Option Char :=
  if h : n.isValidChar then some (Char.ofNatAux n h) else none

/-- The character of a surrogate pair. -/
def paired? (high low : Nat) : Option Char :=
  if 0xD800 ≤ high ∧ high ≤ 0xDBFF ∧ 0xDC00 ≤ low ∧ low ≤ 0xDFFF then
    scalar? (0x10000 + 0x400 * (high - 0xD800) + (low - 0xDC00))
  else none

/-- The fault of a text that does not begin with four hexadecimal digits. Four bytes are taken for
them, whatever they are. -/
def badHexWord (cs : List Char) : Fault :=
  if byteLength cs < 4 then .before .endInString [] else ⟨.invalidEscape, byteLength cs - 4⟩

/-- The value of the four hexadecimal digits at the front of the text. -/
def readHexWord (cs : List Char) : Except Fault (Nat × List Char) :=
  match cs with
  | a :: b :: c :: d :: rest =>
    match hexWord? a b c d with
    | some word => .ok (word, rest)
    | none => .error (badHexWord cs)
  | _ => .error (badHexWord cs)

/-- The fault of a text that stands where the other half of a pair must be escaped. -/
def noEscape : (rest : List Char) → Fault
  | [] => .before .endInString []
  | rest => .first .unpairedEscape rest

/-- Reads the other half of a surrogate pair. -/
def readPaired (high : Nat) : List Char → Except Fault (Char × List Char)
  | '\\' :: 'u' :: cs => do
    let (low, rest) ← readHexWord cs
    match paired? high low with
    | some c => .ok (c, rest)
    | none => .error (.before .loneSurrogate rest)
  | '\\' :: cs => .error (noEscape cs)
  | cs => .error (noEscape cs)

/-- Reads the code of an escaped character, behind its mark. -/
def readCode (cs : List Char) : Except Fault (Char × List Char) := do
  let (word, rest) ← readHexWord cs
  match scalar? word with
  | some c => .ok (c, rest)
  | none =>
    if word < 0xDC00 then readPaired word rest else .error (.before .loneSurrogate rest)

/-- What one step of reading a string finds. -/
inductive Piece where
  /-- The closing quote. -/
  | close
  /-- A character, written plainly or escaped. -/
  | char (c : Char)

/-- Reads one character of a string, or the quote that closes it. -/
def readPiece : List Char → Except Fault (Piece × List Char)
  | [] => .error (.before .endInString [])
  | '"' :: cs => .ok (.close, cs)
  | '\\' :: 'u' :: cs => (readCode cs).map fun (c, rest) => (.char c, rest)
  | '\\' :: e :: cs =>
    match unescape? e with
    | some c => .ok (.char c, cs)
    | none => .error (.first .invalidEscape (e :: cs))
  | c :: cs =>
    if c = '\\' then .error (.before .endInString [])
    else if c.toNat < 0x20 then .error (.before .controlCharacter cs)
    else .ok (.char c, cs)

theorem readHexWord_length {cs rest : List Char} {word : Nat}
    (h : readHexWord cs = .ok (word, rest)) : rest.length < cs.length := by
  unfold readHexWord at h
  split at h
  · split at h <;> cases h
    simp only [List.length_cons]
    omega
  · cases h

theorem readPaired_length {high : Nat} {cs rest : List Char} {c : Char}
    (h : readPaired high cs = .ok (c, rest)) : rest.length < cs.length := by
  unfold readPaired at h
  split at h
  · rename_i behind
    obtain ⟨⟨low, behindLow⟩, hw, h⟩ := Except.bind_eq_ok_iff.1 h
    have := readHexWord_length hw
    simp only at h
    split at h <;> cases h
    simp only [List.length_cons]
    omega
  · cases h
  · cases h

theorem readCode_length {cs rest : List Char} {c : Char} (h : readCode cs = .ok (c, rest)) :
    rest.length < cs.length := by
  obtain ⟨⟨word, behind⟩, hw, h⟩ := Except.bind_eq_ok_iff.1 h
  have hlen := readHexWord_length hw
  simp only at h
  split at h
  · cases h
    exact hlen
  · split at h
    · exact Nat.lt_trans (readPaired_length h) hlen
    · cases h

theorem readPiece_length {cs rest : List Char} {piece : Piece}
    (h : readPiece cs = .ok (piece, rest)) : rest.length < cs.length := by
  unfold readPiece at h
  split at h
  · cases h
  · cases h
    simp
  · obtain ⟨⟨c, behind⟩, hc, h⟩ := Except.map_eq_ok_iff.1 h
    cases h
    have := readCode_length hc
    simp only [List.length_cons]
    omega
  · split at h <;> cases h
    simp only [List.length_cons]
    omega
  · split at h
    · cases h
    · split at h <;> cases h
      simp

/-- The characters of a string up to its closing quote, and the text behind the quote. -/
def readString (cs : List Char) : Except Fault (List Char × List Char) :=
  match h : readPiece cs with
  | .error fault => .error fault
  | .ok (.close, rest) => .ok ([], rest)
  | .ok (.char c, rest) =>
    have := readPiece_length h
    (readString rest).map fun (chars, behind) => (c :: chars, behind)
termination_by cs.length

theorem readString_length {cs chars rest : List Char}
    (h : readString cs = .ok (chars, rest)) : rest.length < cs.length := by
  fun_induction readString cs generalizing chars with
  | case1 => cases h
  | case2 cs behind hp =>
    cases h
    exact readPiece_length hp
  | case3 cs c behind hp _ ih =>
    obtain ⟨⟨chars', rest'⟩, hr, h⟩ := Except.map_eq_ok_iff.1 h
    cases h
    exact Nat.lt_trans (ih hr) (readPiece_length hp)

end AdditiveSchema.Json
