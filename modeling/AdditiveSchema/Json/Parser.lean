import AdditiveSchema.Json.Scalar

/-!
# Reading JSON text

The reader goes through the text once and keeps the containers that are still open on a stack. It
accepts strict JSON only, nested at most `maxDepth` containers deep. `readValue` reads one value
and answers with the text behind it; `parse` asks that nothing but a gap follows. Of several
faults the first one in the text is told.
-/

namespace AdditiveSchema.Json

/-- The greatest number of containers that may be open at once. -/
def maxDepth : Nat := 127

/-- An open container that waits for the value of its next item or member. The items and members
read so far are held last first. -/
inductive Frame where
  | array (items : List Json)
  | object (members : List (String × Json)) (name : String)

/-- What may come next inside the innermost open container. -/
inductive Place where
  /-- A value. -/
  | value
  /-- The first item of an array, or its end. -/
  | firstItem
  /-- An item behind a comma. -/
  | nextItem (items : List Json)
  /-- A comma and another item, or the end of the array. -/
  | afterItem (items : List Json)
  /-- The first name of an object, or its end. -/
  | firstName
  /-- A name behind a comma. -/
  | nextName (members : List (String × Json))
  /-- The colon behind a name. -/
  | colon (members : List (String × Json)) (name : String)
  /-- A comma and another member, or the end of the object. -/
  | afterMember (members : List (String × Json))

/-- What is wrong with a text that ends at this place. -/
def Place.endCause : Place → Cause
  | .value | .nextItem _ | .nextName _ => .endInValue
  | .firstItem | .afterItem _ => .endInArray
  | .firstName | .colon .. | .afterMember _ => .endInObject

/-- The state behind a part of the text: the outermost value is complete, or more must follow. -/
inductive Progress where
  | done (value : Json)
  | more (stack : List Frame) (place : Place)

/-- Hands a complete value to the container that waits for it. -/
def deliver (value : Json) : List Frame → Progress
  | [] => .done value
  | .array items :: stack => .more stack (.afterItem (value :: items))
  | .object members name :: stack => .more stack (.afterMember ((name, value) :: members))

/-- Opens a container inside of those on the stack, if there are not too many. -/
def openAt (stack : List Frame) (place : Place) (mark : Char) (rest : List Char) :
    Except Fault (Progress × List Char) :=
  if stack.length < maxDepth then .ok (.more stack place, rest)
  else .error (.first .tooDeep (mark :: rest))

/-- Reads a value without parts, or opens a container. -/
def startValue (stack : List Frame) : List Char → Except Fault (Progress × List Char)
  | '[' :: rest => openAt stack .firstItem '[' rest
  | '\x7b' :: rest => openAt stack .firstName '\x7b' rest
  | cs => (readScalar cs).map fun (value, rest) => (deliver value stack, rest)

/-- Reads the name of a member. -/
def readName (stack : List Frame) (members : List (String × Json)) :
    List Char → Except Fault (Progress × List Char)
  | '"' :: cs => (readString cs).map fun (chars, rest) =>
      (.more stack (.colon members (String.ofList chars)), rest)
  | cs => .error (.first .expectedName cs)

/-- Reads one part of the text, at the place where it stands. -/
def step (stack : List Frame) : Place → List Char → Except Fault (Progress × List Char)
  | .value, cs => startValue stack cs
  | .firstItem, ']' :: cs => .ok (deliver (.array []) stack, cs)
  | .firstItem, cs => startValue (.array [] :: stack) cs
  | .nextItem _, ']' :: cs => .error (.first .trailingComma (']' :: cs))
  | .nextItem items, cs => startValue (.array items :: stack) cs
  | .afterItem items, ',' :: cs => .ok (.more stack (.nextItem items), cs)
  | .afterItem items, ']' :: cs => .ok (deliver (.array items.reverse) stack, cs)
  | .afterItem _, cs => .error (.first .expectedItemEnd cs)
  | .firstName, '\x7d' :: cs => .ok (deliver (.object []) stack, cs)
  | .firstName, cs => readName stack [] cs
  | .nextName _, '\x7d' :: cs => .error (.first .trailingComma ('\x7d' :: cs))
  | .nextName members, cs => readName stack members cs
  | .colon members name, ':' :: cs => .ok (.more (.object members name :: stack) .value, cs)
  | .colon .., cs => .error (.first .expectedColon cs)
  | .afterMember members, ',' :: cs => .ok (.more stack (.nextName members), cs)
  | .afterMember members, '\x7d' :: cs => .ok (deliver (.object members.reverse) stack, cs)
  | .afterMember _, cs => .error (.first .expectedMemberEnd cs)

theorem startValue_length {stack : List Frame} {cs rest : List Char} {p : Progress}
    (h : startValue stack cs = .ok (p, rest)) : rest.length < cs.length := by
  unfold startValue openAt at h
  split at h
  · split at h <;> cases h
    exact Nat.lt_succ_self _
  · split at h <;> cases h
    exact Nat.lt_succ_self _
  · obtain ⟨⟨value, behind⟩, hs, h⟩ := Except.map_eq_ok_iff.1 h
    cases h
    exact readScalar_length hs

theorem readName_length {stack : List Frame} {members : List (String × Json)}
    {cs rest : List Char} {p : Progress} (h : readName stack members cs = .ok (p, rest)) :
    rest.length < cs.length := by
  unfold readName at h
  split at h
  · obtain ⟨⟨chars, behind⟩, hs, h⟩ := Except.map_eq_ok_iff.1 h
    cases h
    exact Nat.lt_succ_of_lt (readString_length hs)
  · cases h

/-- Every part takes at least one character. -/
theorem step_length {stack : List Frame} {place : Place} {cs rest : List Char} {p : Progress}
    (h : step stack place cs = .ok (p, rest)) : rest.length < cs.length := by
  unfold step at h
  split at h
  all_goals first
    | exact startValue_length h
    | exact readName_length h
    | (cases h <;> exact Nat.lt_succ_self _)

/-- Reads on until the outermost value is complete. -/
def readOn (stack : List Frame) (place : Place) (cs : List Char) :
    Except Fault (Json × List Char) :=
  if (skipGap cs).isEmpty then .error (.before place.endCause [])
  else
    match h : step stack place (skipGap cs) with
    | .error fault => .error fault
    | .ok (.done value, rest) => .ok (value, rest)
    | .ok (.more stack place, rest) =>
      have := Nat.lt_of_lt_of_le (step_length h) (length_dropWhile_le isGap cs)
      readOn stack place rest
termination_by cs.length

/-- The value at the front of the text, and the text behind it. -/
def readValue (cs : List Char) : Except Fault (Json × List Char) :=
  readOn [] .value cs

/-- Nothing but a gap is left of the text. -/
def atEnd (rest : List Char) : Except Fault Unit :=
  match skipGap rest with
  | [] => .ok ()
  | rest => .error (.first .trailingText rest)

/-- The value that the whole text denotes. -/
def parse (text : String) : Except SyntaxError Json :=
  ((do
    let (value, rest) ← readValue text.toList
    atEnd rest
    return value) : Except Fault Json).mapError (.ofFault text.toList)

/-- The value that the whole text denotes, if it is JSON. -/
def parse? (text : String) : Option Json :=
  (parse text).toOption

end AdditiveSchema.Json
