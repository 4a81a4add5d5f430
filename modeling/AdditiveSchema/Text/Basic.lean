import AdditiveSchema.Text.Blank

/-!
# Cutting text

Lengths in bytes, splitting at a character, and taking a text off the front or the end of
another. All functions work on lists of characters; the versions on strings are named beside
them.
-/

namespace AdditiveSchema.Text

/-- The number of bytes of the UTF-8 form. -/
def byteLength : List Char → Nat
  | [] => 0
  | c :: cs => c.utf8Size + byteLength cs

@[simp] theorem byteLength_nil : byteLength [] = 0 := rfl

@[simp] theorem byteLength_cons (c : Char) (cs : List Char) :
    byteLength (c :: cs) = c.utf8Size + byteLength cs := rfl

@[simp] theorem byteLength_append (xs ys : List Char) :
    byteLength (xs ++ ys) = byteLength xs + byteLength ys := by
  induction xs with
  | nil => simp
  | cons x xs ih => simp [ih, Nat.add_assoc]

/-- The parts between the separators. A text without separator is its own only part. -/
def splitAt (separator : Char) : List Char → List (List Char)
  | [] => [[]]
  | c :: cs =>
    if c = separator then [] :: splitAt separator cs
    else match splitAt separator cs with
      | [] => [[c]]
      | part :: parts => (c :: part) :: parts

/-- The parts of a string between the separators. -/
def split (separator : Char) (s : String) : List String :=
  (splitAt separator s.toList).map String.ofList

/-- The part before the first separator and the part behind it. -/
def splitFirst? (separator : Char) : List Char → Option (List Char × List Char)
  | [] => none
  | c :: cs =>
    if c = separator then some ([], cs)
    else (splitFirst? separator cs).map fun (before, behind) => (c :: before, behind)

/-- What stands behind `lead` at the front of the text. -/
def dropLead? : (lead text : List Char) → Option (List Char)
  | [], text => some text
  | _ :: _, [] => none
  | l :: ls, c :: cs => if l = c then dropLead? ls cs else none

/-- What stands before `tail` at the end of the text. -/
def dropTail? (tail text : List Char) : Option (List Char) :=
  (dropLead? tail.reverse text.reverse).map List.reverse

/-- The trimmed, non-empty entries of a list written with commas. -/
def commaList (s : String) : List String :=
  ((split ',' s).map trimmed).filter (!·.isEmpty)

/-- The text without the marks at either end. -/
def strip (isMark : Char → Bool) (s : String) : String :=
  String.ofList ((s.toList.dropWhile isMark).reverse.dropWhile isMark).reverse

/-- Some part of the text reads `piece`. -/
def holds (piece : List Char) : List Char → Bool
  | [] => piece.isEmpty
  | c :: cs => piece.isPrefixOf (c :: cs) || holds piece cs

/-- The lower case of the ASCII letters; all other characters stay. -/
def asciiLower (s : String) : String :=
  String.ofList (s.toList.map Char.toLower)

/-- The upper case of the ASCII letters; all other characters stay. -/
def asciiUpper (s : String) : String :=
  String.ofList (s.toList.map Char.toUpper)

/-- Every occurrence of `mark` is written twice. -/
def double (mark : Char) (cs : List Char) : List Char :=
  cs.flatMap fun c => if c = mark then [mark, mark] else [c]

/-- The text between two marks, with each mark inside written twice. -/
def enclose (mark : Char) (s : String) : String :=
  String.ofList (mark :: double mark s.toList ++ [mark])

end AdditiveSchema.Text
