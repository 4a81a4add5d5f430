import AdditiveSchema.Text.Basic
import AdditiveSchema.Text.Word

/-!
# The text of a definition

SQLite keeps the statements that created its tables and indices, and reports neither the names of
the constraints of a table nor the condition of an index. Both are found in the text: the
constraints by `namedConstraints`, the condition by `condition?`.

The search knows no more of the language than words, names and parentheses. Words are read in any
case. `balanced` finds the end of a text in parentheses; `length_readHead?` says that a constraint
that was read leaves a shorter text, so the search for the next one ends.
-/

namespace AdditiveSchema.Reported.Ddl

open AdditiveSchema.Text

/-! ### Words and names -/

/-- The character is the letter in either case. Two letters have one more form outside of ASCII,
the long `s` and the sign of the unit kelvin. -/
def isLetter (letter c : Char) : Bool :=
  c.toUpper == letter || (letter == 'S' && c == '\u017F') || (letter == 'K' && c == '\u212A')

/-- Reads a word, given in upper case, at the front of the text. -/
def readWord? : (word text : List Char) → Option (List Char × List Char)
  | [], text => some ([], text)
  | _ :: _, [] => none
  | letter :: letters, c :: cs =>
    if isLetter letter c then (readWord? letters cs).map fun (read, rest) => (c :: read, rest)
    else none

/-- What stands behind the blanks at the front, of which there must be one. -/
def dropBlanks? : List Char → Option (List Char)
  | [] => none
  | c :: cs => if isBlank c then some (trimStart cs) else none

/-- Reads a name up to the double quote that closes it. A doubled quote stands for one. -/
def readQuoted? : List Char → Option (List Char × List Char)
  | [] => none
  | '"' :: '"' :: cs => (readQuoted? cs).map fun (name, rest) => ('"' :: name, rest)
  | c :: cs =>
    if c = '"' then some ([], cs)
    else (readQuoted? cs).map fun (name, rest) => (c :: name, rest)

/-- Reads a name: between double quotes, backticks or square brackets, or a bare word. No name is
empty. -/
def readName? (cs : List Char) : Option (List Char × List Char) :=
  let read := match cs with
    | '"' :: cs => readQuoted? cs
    | '\x60' :: cs => splitFirst? '\x60' cs
    | '[' :: cs => splitFirst? ']' cs
    | cs => some (cs.takeWhile isWord, cs.dropWhile isWord)
  read.filter fun (name, _) => !name.isEmpty

/-! ### Parentheses -/

/-- The text before the parenthesis that closes an opened one, where `depth` more are open.
Nothing counts between quotes, which end with the character that they began with. -/
def balancedFrom (quote : Option Char) (depth : Nat) : List Char → Option (List Char)
  | [] => none
  | c :: cs =>
    match quote with
    | some q => (balancedFrom (if c = q then none else some q) depth cs).map (c :: ·)
    | none =>
      if c = '\'' ∨ c = '"' ∨ c = '\x60' then (balancedFrom (some c) depth cs).map (c :: ·)
      else if c = '(' then (balancedFrom none (depth + 1) cs).map (c :: ·)
      else if c = ')' then
        match depth with
        | 0 => some []
        | depth + 1 => (balancedFrom none depth cs).map (c :: ·)
      else (balancedFrom none depth cs).map (c :: ·)

/-- The text before the parenthesis that closes the one in front of the text. -/
def balanced (cs : List Char) : Option (List Char) :=
  balancedFrom none 0 cs

/-! ### Constraints -/

/-- A constraint that has a name in the text of its table. -/
structure NamedConstraint where
  name : String
  /-- The words of the constraint in upper case. -/
  kind : String
  /-- The text between the parentheses. -/
  body : String
  deriving DecidableEq, Repr

/-- Reads the two words of a primary key, which are then one blank apart. -/
def readPrimaryKey? (cs : List Char) : Option (List Char × List Char) := do
  let (first, rest) ← readWord? "PRIMARY".toList cs
  let (second, rest) ← readWord? "KEY".toList (← dropBlanks? rest)
  return (first ++ ' ' :: second, rest)

/-- Reads the words of a constraint. -/
def readKind? (cs : List Char) : Option (List Char × List Char) :=
  (readPrimaryKey? cs).or ((readWord? "UNIQUE".toList cs).or (readWord? "CHECK".toList cs))

/-- Reads a constraint up to its opening parenthesis: its name and its words. -/
def readHead? (cs : List Char) : Option ((List Char × List Char) × List Char) := do
  let (_, rest) ← readWord? "CONSTRAINT".toList cs
  let (name, rest) ← readName? (← dropBlanks? rest)
  let (kind, rest) ← readKind? (← dropBlanks? rest)
  match trimStart rest with
  | '(' :: rest => some ((name, kind), rest)
  | _ => none

theorem length_of_readWord? {word cs read rest : List Char}
    (h : readWord? word cs = some (read, rest)) : rest.length + word.length = cs.length := by
  fun_induction readWord? word cs generalizing read with
  | case1 => simp_all
  | case2 => simp at h
  | case3 letter letters c cs _ ih =>
    obtain ⟨⟨read', rest'⟩, hr, heq⟩ := Option.map_eq_some_iff.1 h
    simp only [Prod.mk.injEq] at heq
    have := ih (heq.2 ▸ hr)
    simp only [List.length_cons]
    omega
  | case4 => simp at h

theorem length_of_dropBlanks? {cs rest : List Char} (h : dropBlanks? cs = some rest) :
    rest.length < cs.length := by
  cases cs with
  | nil => simp [dropBlanks?] at h
  | cons c cs =>
    simp only [dropBlanks?, Option.ite_none_right_eq_some, Option.some.injEq] at h
    have := length_trimStart_le cs
    simp only [← h.2, List.length_cons]
    omega

theorem length_of_readQuoted? {cs name rest : List Char}
    (h : readQuoted? cs = some (name, rest)) : rest.length < cs.length := by
  fun_induction readQuoted? cs generalizing name with
  | case1 => simp at h
  | case2 cs ih =>
    obtain ⟨⟨name', rest'⟩, hr, heq⟩ := Option.map_eq_some_iff.1 h
    simp only [Prod.mk.injEq] at heq
    have := ih (heq.2 ▸ hr)
    simp only [List.length_cons]
    omega
  | case3 => simp_all
  | case4 c cs _ _ ih =>
    obtain ⟨⟨name', rest'⟩, hr, heq⟩ := Option.map_eq_some_iff.1 h
    simp only [Prod.mk.injEq] at heq
    have := ih (heq.2 ▸ hr)
    simp only [List.length_cons]
    omega

theorem length_of_splitFirst? {mark : Char} {cs before behind : List Char}
    (h : splitFirst? mark cs = some (before, behind)) : behind.length < cs.length := by
  fun_induction splitFirst? mark cs generalizing before with
  | case1 => simp at h
  | case2 => simp_all
  | case3 c cs _ ih =>
    obtain ⟨⟨before', behind'⟩, hr, heq⟩ := Option.map_eq_some_iff.1 h
    simp only [Prod.mk.injEq] at heq
    have := ih (heq.2 ▸ hr)
    simp only [List.length_cons]
    omega

theorem length_of_readName? {cs name rest : List Char}
    (h : readName? cs = some (name, rest)) : rest.length ≤ cs.length := by
  obtain ⟨h, -⟩ := Option.filter_eq_some_iff.1 h
  split at h
  · exact Nat.le_succ_of_le (Nat.le_of_lt (length_of_readQuoted? h))
  · exact Nat.le_succ_of_le (Nat.le_of_lt (length_of_splitFirst? h))
  · exact Nat.le_succ_of_le (Nat.le_of_lt (length_of_splitFirst? h))
  · simp only [Option.some.injEq, Prod.mk.injEq] at h
    exact h.2 ▸ (List.dropWhile_sublist isWord).length_le

theorem length_of_readKind? {cs kind rest : List Char}
    (h : readKind? cs = some (kind, rest)) : rest.length ≤ cs.length := by
  rcases Option.or_eq_some_iff.1 h with h | ⟨-, h⟩
  · simp only [readPrimaryKey?, Option.bind_eq_bind, Option.bind_eq_some_iff, Option.pure_def,
      Option.some.injEq, Prod.mk.injEq] at h
    obtain ⟨⟨first, behindFirst⟩, hFirst, gap, hGap, ⟨second, behindSecond⟩, hSecond, -, rfl⟩ := h
    dsimp only at hGap ⊢
    have := length_of_readWord? hFirst
    have := length_of_dropBlanks? hGap
    have := length_of_readWord? hSecond
    omega
  · rcases Option.or_eq_some_iff.1 h with h | ⟨-, h⟩ <;>
    · have := length_of_readWord? h
      omega

/-- A constraint that was read leaves a shorter text. -/
theorem length_of_readHead? {cs rest : List Char} {head : List Char × List Char}
    (h : readHead? cs = some (head, rest)) : rest.length < cs.length := by
  simp only [readHead?, Option.bind_eq_bind, Option.bind_eq_some_iff] at h
  obtain ⟨⟨word, behindWord⟩, hWord, gap, hGap, ⟨name, behindName⟩, hName, gap', hGap',
    ⟨kind, behindKind⟩, hKind, h⟩ := h
  dsimp only at hGap hGap' h
  have := length_of_readWord? hWord
  have := length_of_dropBlanks? hGap
  have := length_of_readName? hName
  have := length_of_dropBlanks? hGap'
  have := length_of_readKind? hKind
  have hTrim := length_trimStart_le behindKind
  split at h
  · rename_i behind heq
    simp only [Option.some.injEq, Prod.mk.injEq] at h
    simp only [heq, List.length_cons] at hTrim
    rw [← h.2]
    omega
  · cases h

/-- The named constraints of a text, in order. One whose parentheses are not closed is left out,
and the search goes on behind its opening parenthesis. -/
def namedConstraints : List Char → List NamedConstraint
  | [] => []
  | c :: cs =>
    match h : readHead? (c :: cs) with
    | none => namedConstraints cs
    | some ((name, kind), rest) =>
      have := length_of_readHead? h
      match balanced rest with
      | none => namedConstraints rest
      | some body =>
        ⟨String.ofList name, asciiUpper (String.ofList kind), String.ofList (trim body)⟩ ::
          namedConstraints rest
termination_by cs => cs.length
decreasing_by
  · exact Nat.lt_succ_self _
  · assumption
  · assumption

/-- The list of columns in a constraint is this list. Each entry loses the blanks around it, and
then all quotes and backticks at its ends. -/
def sameColumns (body : String) (columns : List String) : Bool :=
  (split ',' body).map (fun entry => strip (fun c => c == '"' || c == '\x60') (trimmed entry)) ==
    columns

/-! ### Single words -/

/-- A word, given in upper case, stands in the text and is no part of a longer one. `behindWord`
says that the text follows a character of a word. -/
def holdsWord (word : List Char) (behindWord : Bool) : List Char → Bool
  | [] => false
  | c :: cs =>
    (!behindWord && (readWord? word (c :: cs)).any fun (_, rest) => !rest.head?.any isWord) ||
      holdsWord word (isWord c) cs

/-- The text of a table asks for row numbers that are never used twice. -/
def holdsAutoincrement (ddl : String) : Bool :=
  holdsWord "AUTOINCREMENT".toList false ddl.toList

/-- What stands behind the blanks at the front, of which there must be one. If nothing does, the
last of several blanks is the answer. -/
def behindBlanks? (cs : List Char) : Option (List Char) :=
  match cs with
  | [] => none
  | c :: cs =>
    if !isBlank c then none
    else match trimStart cs with
      | [] => cs.getLast?.map ([·])
      | rest => some rest

/-- The condition in the text of an index: all that follows the first closing parenthesis that
has the word `WHERE` and a condition behind it. -/
def condition? : List Char → Option (List Char)
  | [] => none
  | c :: cs =>
    let here := if c = ')' then do
        let (_, rest) ← readWord? "WHERE".toList (trimStart cs)
        behindBlanks? rest
      else none
    here <|> condition? cs

end AdditiveSchema.Reported.Ddl
