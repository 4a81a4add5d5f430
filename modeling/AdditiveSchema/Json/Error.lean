import AdditiveSchema.Text.Basic

/-!
# Errors of JSON text

A reader that meets a fault tells its cause and how many bytes of the text are left behind it, so
no reader has to count what it has read. `SyntaxError.ofFault` finds the line and the column of
the fault in the whole text.
-/

namespace AdditiveSchema.Json

open AdditiveSchema.Text

/-- What is wrong with a text that is no JSON. -/
inductive Cause where
  /-- The text ends inside of an array. -/
  | endInArray
  /-- The text ends inside of an object. -/
  | endInObject
  /-- The text ends inside of a string. -/
  | endInString
  /-- The text ends where a value must stand. -/
  | endInValue
  /-- No value stands where one must stand. -/
  | expectedValue
  /-- The word of a value is not complete. -/
  | expectedWord
  /-- No colon follows a name. -/
  | expectedColon
  /-- An item is followed by neither a comma nor the end of the array. -/
  | expectedItemEnd
  /-- A member is followed by neither a comma nor the end of the object. -/
  | expectedMemberEnd
  /-- The name of a member is no string. -/
  | expectedName
  /-- Nothing but an end follows a comma. -/
  | trailingComma
  /-- Something follows the value. -/
  | trailingText
  /-- Too many containers are open. -/
  | tooDeep
  /-- A number lacks a digit or has a zero too many in front. -/
  | invalidNumber
  /-- The number is beyond every double. -/
  | numberOutOfRange
  /-- The escape stands for no character. -/
  | invalidEscape
  /-- A leading surrogate is not followed by another escape. -/
  | unpairedEscape
  /-- Two escapes are no surrogate pair. -/
  | loneSurrogate
  /-- A control character stands in a string. -/
  | controlCharacter
  deriving DecidableEq, Repr

/-- The wording of a cause. -/
def Cause.message : Cause → String
  | .endInArray => "EOF while parsing a list"
  | .endInObject => "EOF while parsing an object"
  | .endInString => "EOF while parsing a string"
  | .endInValue => "EOF while parsing a value"
  | .expectedValue => "expected value"
  | .expectedWord => "expected ident"
  | .expectedColon => "expected `:`"
  | .expectedItemEnd => "expected `,` or `]`"
  | .expectedMemberEnd => "expected `,` or `\x7d`"
  | .expectedName => "key must be a string"
  | .trailingComma => "trailing comma"
  | .trailingText => "trailing characters"
  | .tooDeep => "recursion limit exceeded"
  | .invalidNumber => "invalid number"
  | .numberOutOfRange => "number out of range"
  | .invalidEscape => "invalid escape"
  | .unpairedEscape => "unexpected end of hex escape"
  | .loneSurrogate => "lone leading surrogate in hex escape"
  | .controlCharacter => "control character (\\u0000-\\u001F) found while parsing a string"

/-- A fault, and the number of bytes that are left of the text behind it. -/
structure Fault where
  cause : Cause
  left : Nat
  deriving DecidableEq, Repr

/-- A fault in front of the rest of the text. -/
def Fault.before (cause : Cause) (rest : List Char) : Fault :=
  ⟨cause, byteLength rest⟩

/-- A fault of the first byte of the rest, if there is one. -/
def Fault.first (cause : Cause) (rest : List Char) : Fault :=
  ⟨cause, byteLength rest - 1⟩

/-! ### Places in a text -/

/-- A place in a text: its line, counted from one, and the bytes in front of it in that line. -/
structure Position where
  line : Nat := 1
  column : Nat := 0
  deriving DecidableEq, Repr

/-- The place behind one character. -/
def Position.next (p : Position) (c : Char) : Position :=
  if c = '\n' then { line := p.line + 1 } else { p with column := p.column + c.utf8Size }

/-- The place behind that many bytes of a text that starts at `p`. It may be inside of a
character. -/
def Position.advance (p : Position) : (bytes : Nat) → List Char → Position
  | _, [] => p
  | bytes, c :: cs =>
    if bytes < c.utf8Size then { p with column := p.column + bytes }
    else (p.next c).advance (bytes - c.utf8Size) cs

/-- Why a text is no JSON, and where. -/
structure SyntaxError where
  cause : Cause
  position : Position
  deriving DecidableEq, Repr

/-- The fault with its place in the text. -/
def SyntaxError.ofFault (text : List Char) (fault : Fault) : SyntaxError where
  cause := fault.cause
  position := ({} : Position).advance (byteLength text - fault.left) text

/-- The wording of the error. -/
def SyntaxError.message (e : SyntaxError) : String :=
  e.cause.message ++ " at line " ++ toString e.position.line ++ " column " ++
    toString e.position.column

end AdditiveSchema.Json
