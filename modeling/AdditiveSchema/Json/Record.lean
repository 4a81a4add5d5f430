import AdditiveSchema.Json.Basic

/-!
# Records and maps in JSON

A record is an object whose members are its fields, or an array of the values of its fields in
order. Members that are no fields are passed over, but a field may not be repeated, and an array
may not have more items than the record has fields. A map is an object, and of a repeated name
the last member counts. A word of a closed set is its name, or an object with `null` under the
name.
-/

namespace AdditiveSchema.Json

/-- The value of a field, `none` if the field is missing. A repeated field is refused. -/
def member? (members : List (String × Json)) (name : String) : Option (Option Json) :=
  match members.filter (·.1 == name) with
  | [] => some none
  | [(_, value)] => some (some value)
  | _ => none

/-- The values of the fields of a record, in the order of the names. A field that is missing has
none. -/
def fields? (names : List String) : Json → Option (List (Option Json))
  | .object members => names.mapM (member? members)
  | .array items =>
    if items.length ≤ names.length then
      some (items.map some ++ List.replicate (names.length - items.length) none)
    else none
  | _ => none

/-- A field that must be there. -/
def required? {α : Type} (decode : Json → Option α) : Option Json → Option α
  | some value => decode value
  | none => none

/-- A field with a default. -/
def orDefault? {α : Type} (decode : Json → Option α) (default : α) : Option Json → Option α
  | some value => decode value
  | none => some default

/-- A value that may be `null`. -/
def nullable? {α : Type} (decode : Json → Option α) : Json → Option (Option α)
  | .null => some none
  | value => (decode value).map some

/-- The items of an array. -/
def list? {α : Type} (decode : Json → Option α) : Json → Option (List α)
  | .array items => items.mapM decode
  | _ => none

/-- A word of a closed set. -/
def word? {α : Type} (ofName : String → Option α) : Json → Option α
  | .string name => ofName name
  | .object [(name, .null)] => ofName name
  | _ => none

/-- The entries of a map, in the order of the text. -/
def entries? {κ α : Type} (key : String → Option κ) (decode : Json → Option α) :
    Json → Option (List (κ × α))
  | .object members => members.mapM fun (name, value) => do
    let k ← key name
    let a ← decode value
    return (k, a)
  | _ => none

end AdditiveSchema.Json
