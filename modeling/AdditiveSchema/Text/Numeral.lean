/-!
# Numerals

Two grammars of numbers in text: unsigned machine words, and decimal numerals with point and
exponent.
-/

namespace AdditiveSchema.Text

/-- The value of a digit. -/
def digitValue (c : Char) : Nat :=
  c.toNat - '0'.toNat

/-- The number that a list of digits denotes. -/
def digitsValue (ds : List Char) : Nat :=
  ds.foldl (fun n d => 10 * n + digitValue d) 0

/-- Why a text is no unsigned word. -/
inductive WordError where
  | empty
  | invalidDigit
  | tooLarge
  deriving DecidableEq, Repr

/-- The wording of a `WordError`. -/
def WordError.message : WordError → String
  | .empty => "cannot parse integer from empty string"
  | .invalidDigit => "invalid digit found in string"
  | .tooLarge => "number too large to fit in target type"

/-- The largest unsigned word of 64 bits. -/
def maxWord : Nat := 1 <<< 64 - 1

/-- Reads digits from the left onto the value of those already read. The word must fit at every
digit, so an overflow is reported before a wrong character behind it. -/
def readDigits (value : Nat) : List Char → Except WordError Nat
  | [] => .ok value
  | c :: cs =>
    if !c.isDigit then .error .invalidDigit
    else
      let next := 10 * value + digitValue c
      if maxWord < next then .error .tooLarge else readDigits next cs

/-- An unsigned word of 64 bits in decimal, with an optional plus sign. -/
def readWord (s : String) : Except WordError Nat :=
  match s.toList with
  | [] => .error .empty
  | ['+'] => .error .invalidDigit
  | '+' :: cs => readDigits 0 cs
  | cs => readDigits 0 cs

/-- An exponent mark, an optional sign and at least one digit, or nothing at all. -/
def isExponent : List Char → Bool
  | [] => true
  | e :: cs =>
    (e == 'e' || e == 'E') &&
      let digits := match cs with
        | '+' :: ds => ds
        | '-' :: ds => ds
        | ds => ds
      !digits.isEmpty && digits.all Char.isDigit

/-- Digits with at most one point, at least one of them digits, and an optional exponent. -/
def isUnsignedNumeral (cs : List Char) : Bool :=
  let whole := cs.takeWhile Char.isDigit
  match cs.dropWhile Char.isDigit with
  | '.' :: rest =>
    let fraction := rest.takeWhile Char.isDigit
    !(whole.isEmpty && fraction.isEmpty) && isExponent (rest.dropWhile Char.isDigit)
  | rest => !whole.isEmpty && isExponent rest

/-- The names of the values that have no digits, in lower case. -/
def namedNumerals : List String := ["inf", "infinity", "nan"]

/-- A floating point numeral: an optional sign, then an unsigned numeral or one of
`namedNumerals` in any case. -/
def isNumeral (cs : List Char) : Bool :=
  let unsigned := match cs with
    | '+' :: ds => ds
    | '-' :: ds => ds
    | ds => ds
  isUnsignedNumeral unsigned || namedNumerals.contains (String.ofList (unsigned.map Char.toLower))

end AdditiveSchema.Text
