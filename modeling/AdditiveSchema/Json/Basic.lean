/-!
# JSON values

The members of an object are kept in the order of the text, repeated names included, so that a
reader can tell a repeated member from a single one.
-/

namespace AdditiveSchema

/-- A JSON value. A number is `digits * 10 ^ exponent`. -/
inductive Json where
  | null
  | bool (value : Bool)
  | number (digits : Int) (exponent : Int)
  | string (value : String)
  | array (items : List Json)
  | object (members : List (String × Json))
  deriving Repr

namespace Json

instance : Inhabited Json := ⟨.null⟩

/-- A count. -/
def nat (n : Nat) : Json := .number n 0

/-- A list of strings. -/
def strings (values : List String) : Json := .array (values.map .string)

/-- The value, or `null` if there is none. -/
def ofOption {α : Type} (encode : α → Json) : Option α → Json
  | none => .null
  | some a => encode a

/-- The last member of that name. -/
def field? (value : Json) (name : String) : Option Json :=
  match value with
  | .object members => members.reverse.lookup name
  | _ => none

/-- The string that the value is. -/
def string? : Json → Option String
  | .string s => some s
  | _ => none

/-- The truth value that the value is. -/
def bool? : Json → Option Bool
  | .bool b => some b
  | _ => none

/-- The items of an array. -/
def items? : Json → Option (List Json)
  | .array items => some items
  | _ => none

/-- The whole number that the value is. -/
def int? : Json → Option Int
  | .number digits 0 => some digits
  | _ => none

end Json

end AdditiveSchema
