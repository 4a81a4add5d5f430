import AdditiveSchema.Directive.Value

/-!
# Modifiers

The values of a directive, read as `name=value` pairs in the order of the text. A value without
the equals sign is a flag: a name with an empty value.
-/

namespace AdditiveSchema.Directive

open AdditiveSchema.Text

/-- A named value. -/
structure Modifier where
  name : String
  value : String
  deriving DecidableEq, Repr

/-- The modifier carries no value. -/
def Modifier.isFlag (m : Modifier) : Bool :=
  m.value.isEmpty

/-- Takes away an opening brace at the front together with a closing brace at the end. -/
def stripBraces (cs : List Char) : List Char :=
  if 2 ≤ cs.length ∧ cs.head? = some '{' ∧ cs.getLast? = some '}' then inner cs else cs

/-- A value as a modifier: the name stands before the first equals sign. -/
def Modifier.ofValue (value : List Char) : Modifier :=
  match splitFirst? '=' value with
  | none => ⟨String.ofList value, ""⟩
  | some (name, value) => ⟨String.ofList name, String.ofList (stripBraces value)⟩

/-- The modifiers of a text whose first character stands at `pos`. Empty values are skipped. -/
def modifiersAt (pos : Nat) (cs : List Char) : Except LexError (List Modifier) :=
  if hne : cs = [] then .ok []
  else
    match h : cutAt pos cs with
    | .error e => .error e
    | .ok (value, rest) =>
      have := cutAt_length hne h
      (modifiersAt (pos + (byteLength cs - byteLength rest)) rest).map fun modifiers =>
        if value.isEmpty then modifiers else .ofValue value :: modifiers
termination_by cs.length

/-- The modifiers of a directive. -/
def modifiers (s : String) : Except LexError (List Modifier) :=
  modifiersAt 0 s.toList

/-- The first value of a directive and the modifiers behind it. -/
def valueAndModifiers (s : String) : Except LexError (String × List Modifier) := do
  let (value, rest) ← cut s.toList
  let modifiers ← modifiersAt (byteLength s.toList - byteLength rest) rest
  return (String.ofList value, modifiers)

end AdditiveSchema.Directive
