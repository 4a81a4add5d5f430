import AdditiveSchema.Kind
import AdditiveSchema.Proofs.Identifiers
import AdditiveSchema.Reported.Ddl
import Mathlib.Data.List.Basic

/-!
# The search for constraints

The search for the constraints in the text of a table reads what is written for a constraint: its
name, with each quote undoubled, its words, and the text up to the parenthesis that closes the
opened one, if quotes and parentheses are closed in it. All other text is passed over as long as
the word that begins a constraint does not stand before a blank in it. The search does not know
where it is, so this word counts in a quoted text, too.

## Main definitions

* `mentionsConstraint` : a constraint could begin in the text.
* `IsBorder` : a text into which nothing is read that began before it.
* `Closed` : the quotes of a text are closed and its parentheses match.

## Main results

* `namedConstraints_append` : a text that mentions no constraint is passed over.
* `Closed.passes` : closed text is gone through.
* `namedConstraints_headText` : a constraint is read as it is written.
-/

namespace AdditiveSchema.Reported.Ddl

open AdditiveSchema.Text

/-! ### Words -/

theorem readWord?_append_self {word : List Char} (h : word.all (fun c => isLetter c c) = true)
    (cs : List Char) : readWord? word (word ++ cs) = some (word, cs) := by
  induction word with
  | nil => cases cs <;> rfl
  | cons letter letters ih =>
    rw [List.all_cons, Bool.and_eq_true] at h
    rw [List.cons_append, readWord?, if_pos h.1, ih h.2]
    rfl

/-- A word that was read ends before a text that begins with none of its letters. -/
theorem exists_of_readWord?_append {word text rest read out : List Char}
    (hrest : ∀ c ∈ rest.head?, word.any (isLetter · c) = false)
    (h : readWord? word (text ++ rest) = some (read, out)) :
    ∃ behind, readWord? word text = some (read, behind) ∧ out = behind ++ rest := by
  induction word generalizing text read with
  | nil =>
    rw [readWord?] at h
    cases h
    exact ⟨text, by rw [readWord?], rfl⟩
  | cons letter letters ih =>
    simp only [List.any_cons, Bool.or_eq_false_iff] at hrest
    cases text with
    | nil =>
      cases rest with
      | nil => cases h
      | cons c rest =>
        rw [List.nil_append, readWord?, (hrest c rfl).1] at h
        cases h
    | cons c text =>
      rw [List.cons_append, readWord?] at h
      split at h
      · rename_i hletter
        obtain ⟨⟨read', out'⟩, hread, heq⟩ := Option.map_eq_some_iff.mp h
        cases heq
        obtain ⟨behind, hbehind, rfl⟩ := ih (fun c hc => (hrest c hc).2) hread
        exact ⟨behind, by rw [readWord?, if_pos hletter, hbehind]; rfl, rfl⟩
      · cases h

/-! ### Text that is passed over -/

/-- The word that begins a constraint stands in the text with a blank behind it. -/
def mentionsConstraint : List Char → Bool
  | [] => false
  | c :: cs =>
    (readWord? "CONSTRAINT".toList (c :: cs)).any (fun (_, rest) => rest.head?.any isBlank) ||
      mentionsConstraint cs

/-- The text begins neither with a letter of the word that begins a constraint nor with the name of
one. So no constraint is read into it that began before. -/
structure IsBorder (rest : List Char) : Prop where
  letter : ∀ c ∈ rest.head?, "CONSTRAINT".toList.any (isLetter · c) = false
  name : ∀ text, dropBlanks? rest = some text → readName? text = none

theorem readHead?_eq_none {cs : List Char}
    (h : ∀ read gap, readWord? "CONSTRAINT".toList cs = some (read, gap) →
      ∀ text, dropBlanks? gap = some text → readName? text = none) : readHead? cs = none := by
  rw [readHead?]
  cases hword : readWord? "CONSTRAINT".toList cs with
  | none => rfl
  | some word =>
    obtain ⟨read, gap⟩ := word
    cases hgap : dropBlanks? gap with
    | none => simp [hgap]
    | some text => simp [hgap, h read gap hword text hgap]

theorem namedConstraints_cons {c : Char} {cs : List Char} (h : readHead? (c :: cs) = none) :
    namedConstraints (c :: cs) = namedConstraints cs := by
  rw [namedConstraints]
  split
  · rfl
  · rename_i hhead
    rw [h] at hhead
    cases hhead

/-- **Text that mentions no constraint is passed over** up to a border. -/
theorem namedConstraints_append {text rest : List Char} (hborder : IsBorder rest)
    (h : mentionsConstraint text = false) :
    namedConstraints (text ++ rest) = namedConstraints rest := by
  induction text with
  | nil => rfl
  | cons c text ih =>
    rw [mentionsConstraint, Bool.or_eq_false_iff] at h
    have hhead : readHead? (c :: text ++ rest) = none := by
      refine readHead?_eq_none fun read gap hword => ?_
      obtain ⟨behind, hbehind, rfl⟩ := exists_of_readWord?_append hborder.letter hword
      cases behind with
      | nil => exact hborder.name
      | cons b behind =>
        -- the word ends in the text, and no blank follows
        have hblank : isBlank b = false := by
          rw [hbehind] at h
          exact h.1
        intro text hdrop
        rw [List.cons_append, dropBlanks?, hblank] at hdrop
        cases hdrop
    rw [List.cons_append] at hhead ⊢
    rw [namedConstraints_cons hhead, ih h.2]

/-- No constraint begins with a character that is not the first one of its word. -/
theorem namedConstraints_append_of_not_isLetter {text rest : List Char}
    (h : text.any (isLetter 'C') = false) :
    namedConstraints (text ++ rest) = namedConstraints rest := by
  induction text with
  | nil => rfl
  | cons c text ih =>
    rw [List.any_cons, Bool.or_eq_false_iff] at h
    have hhead : readHead? (c :: (text ++ rest)) = none :=
      readHead?_eq_none fun read gap hword => by simp [readWord?, h.1] at hword
    rw [List.cons_append, namedConstraints_cons hhead, ih h.2]

theorem isBorder_cons {c : Char} {cs : List Char}
    (hletter : "CONSTRAINT".toList.any (isLetter · c) = false)
    (hblank : isBlank c = false) : IsBorder (c :: cs) := by
  refine ⟨fun c' hc' => ?_, fun text hdrop => ?_⟩
  · cases hc'
    exact hletter
  · rw [dropBlanks?, hblank] at hdrop
    cases hdrop

/-! ### Heads of constraints -/

/-- A name between double quotes is read as any text between marks. -/
theorem readQuoted?_eq_readInner? (cs : List Char) : readQuoted? cs = readInner? '"' cs := by
  fun_induction readQuoted? cs with
  | case1 => rfl
  | case2 cs ih => simp [ih, readInner?]
  | case3 cs hdouble =>
    cases cs with
    | nil => rfl
    | cons c cs => simp_all [readInner?]
  | case4 c cs hdouble hc ih => rw [ih, readInner?_cons_of_ne hc]

theorem readQuoted?_double {cs rest : List Char} (hrest : rest.head? ≠ some '"') :
    readQuoted? (double '"' cs ++ '"' :: rest) = some (cs, rest) :=
  (readQuoted?_eq_readInner? _).trans (readInner?_double hrest cs)

/-- A quoted name is read as it was before it was quoted. -/
theorem readName?_double {name rest : List Char} (hname : name ≠ [])
    (hrest : rest.head? ≠ some '"') :
    readName? ('"' :: (double '"' name ++ '"' :: rest)) = some (name, rest) := by
  simp [readName?, readQuoted?_double hrest, hname]

theorem readKind?_sql (kind : ConstraintKind) (rest : List Char) :
    readKind? (kind.sql.toList ++ ' ' :: rest) = some (kind.sql.toList, ' ' :: rest) := by
  cases kind <;> rfl

theorem dropBlanks?_space {c : Char} {cs : List Char} (h : isBlank c = false) :
    dropBlanks? (' ' :: c :: cs) = some (c :: cs) := by
  rw [dropBlanks?, if_pos (by decide), trimStart, List.dropWhile_cons_of_neg (by simp [h])]

/-- What is written in front of the text of a constraint. -/
def headText (name : List Char) (kind : ConstraintKind) : List Char :=
  "CONSTRAINT".toList ++ ' ' :: '"' :: (double '"' name ++ '"' :: ' ' ::
    (kind.sql.toList ++ [' ', '(']))

theorem readHead?_headText {name : List Char} (hname : name ≠ []) (kind : ConstraintKind)
    (rest : List Char) :
    readHead? (headText name kind ++ rest) = some ((name, kind.sql.toList), rest) := by
  have hword : "CONSTRAINT".toList.all (fun c => isLetter c c) = true := by decide
  have hkind (out : List Char) : dropBlanks? (' ' :: (kind.sql.toList ++ out)) =
      some (kind.sql.toList ++ out) := by
    cases kind <;> exact dropBlanks?_space (by decide)
  unfold readHead? headText
  -- all that matters of the word is that it is in upper case
  generalize "CONSTRAINT".toList = word at hword ⊢
  simp only [List.append_assoc, List.cons_append, List.nil_append]
  rw [readWord?_append_self hword]
  simp only [Option.bind_eq_bind, Option.bind_some]
  rw [dropBlanks?_space (by decide), Option.bind_some, readName?_double hname (by simp),
    Option.bind_some, hkind, Option.bind_some, readKind?_sql, Option.bind_some]
  rfl

/-! ### Parentheses -/

/-- A character that neither opens nor closes anything. -/
def isPlain (c : Char) : Bool :=
  c != '\'' && c != '"' && c != '\x60' && c != '(' && c != ')'

/-- The quotes of the text are closed, and so are the parentheses that stand outside of them. -/
inductive Closed : List Char → Prop
  | nil : Closed []
  | plain {c : Char} {cs : List Char} (hc : isPlain c = true) (hcs : Closed cs) : Closed (c :: cs)
  | quoted {mark : Char} {inner cs : List Char} (hmark : mark = '\'' ∨ mark = '"' ∨ mark = '\x60')
    (hinner : mark ∉ inner) (hcs : Closed cs) : Closed (mark :: (inner ++ mark :: cs))
  | parens {inner cs : List Char} (hinner : Closed inner) (hcs : Closed cs) :
    Closed ('(' :: (inner ++ ')' :: cs))

theorem Closed.append_of_isPlain {cs rest : List Char} (h : cs.all isPlain = true)
    (hrest : Closed rest) : Closed (cs ++ rest) := by
  induction cs with
  | nil => exact hrest
  | cons c cs ih =>
    rw [List.all_cons, Bool.and_eq_true] at h
    exact .plain h.1 (ih h.2)

theorem closed_of_isPlain {cs : List Char} (h : cs.all isPlain = true) : Closed cs :=
  List.append_nil cs ▸ Closed.nil.append_of_isPlain h

/-- The search for a closing parenthesis goes through the text and comes out as it went in. -/
def Passes (text : List Char) : Prop :=
  ∀ depth rest, balancedFrom none depth (text ++ rest) =
    (balancedFrom none depth rest).map (text ++ ·)

namespace Passes

variable {text text' : List Char}

theorem nil : Passes [] := by
  intro depth rest
  simp

theorem append (h : Passes text) (h' : Passes text') : Passes (text ++ text') := by
  intro depth rest
  rw [List.append_assoc, h, h', Option.map_map]
  simp [Function.comp_def]

theorem balanced_append (h : Passes text) (rest : List Char) :
    balanced (text ++ ')' :: rest) = some text := by
  rw [balanced, h]
  simp [balancedFrom]

end Passes

theorem balancedFrom_cons_of_isPlain {c : Char} (hc : isPlain c = true) (depth : Nat)
    (cs : List Char) :
    balancedFrom none depth (c :: cs) = (balancedFrom none depth cs).map (c :: ·) := by
  simp only [isPlain, Bool.and_eq_true, bne_iff_ne, ne_eq] at hc
  obtain ⟨⟨⟨⟨hquote, hdouble⟩, htick⟩, hopen⟩, hclose⟩ := hc
  simp [balancedFrom, hquote, hdouble, htick, hopen, hclose]

theorem balancedFrom_cons_of_mark {mark : Char} (hmark : mark = '\'' ∨ mark = '"' ∨ mark = '\x60')
    (depth : Nat) (cs : List Char) :
    balancedFrom none depth (mark :: cs) = (balancedFrom (some mark) depth cs).map (mark :: ·) := by
  rw [balancedFrom.eq_def]
  exact if_pos hmark

theorem balancedFrom_mark (mark : Char) (depth : Nat) (cs : List Char) :
    balancedFrom (some mark) depth (mark :: cs) = (balancedFrom none depth cs).map (mark :: ·) := by
  simp [balancedFrom]

theorem balancedFrom_cons_of_ne {mark c : Char} (hc : c ≠ mark) (depth : Nat) (cs : List Char) :
    balancedFrom (some mark) depth (c :: cs) =
      (balancedFrom (some mark) depth cs).map (c :: ·) := by
  simp [balancedFrom, hc]

/-- Nothing counts before the mark that closes a quoted text. -/
theorem balancedFrom_quoted {mark : Char} {inner : List Char} (hinner : mark ∉ inner) (depth : Nat)
    (rest : List Char) :
    balancedFrom (some mark) depth (inner ++ mark :: rest) =
      (balancedFrom none depth rest).map (inner ++ mark :: ·) := by
  induction inner with
  | nil => exact balancedFrom_mark mark depth rest
  | cons c inner ih =>
    rw [List.mem_cons, not_or] at hinner
    rw [List.cons_append, balancedFrom_cons_of_ne (Ne.symm hinner.1), ih hinner.2, Option.map_map]
    rfl

/-- **Closed text is gone through.** -/
theorem Closed.passes {text : List Char} (h : Closed text) : Passes text := by
  induction h with
  | nil => exact .nil
  | plain hc _ ih =>
    intro depth rest
    rw [List.cons_append, balancedFrom_cons_of_isPlain hc, ih, Option.map_map]
    rfl
  | @quoted mark inner cs hmark hinner _ ih =>
    intro depth rest
    rw [List.cons_append, balancedFrom_cons_of_mark hmark, List.append_assoc, List.cons_append,
      balancedFrom_quoted hinner, ih, Option.map_map, Option.map_map]
    simp [Function.comp_def]
  | @parens inner cs _ _ ihinner ih =>
    intro depth rest
    have hopen (cs : List Char) : balancedFrom none depth ('(' :: cs) =
        (balancedFrom none (depth + 1) cs).map ('(' :: ·) := by
      simp [balancedFrom]
    have hclose (cs : List Char) : balancedFrom none (depth + 1) (')' :: cs) =
        (balancedFrom none depth cs).map (')' :: ·) := by
      simp [balancedFrom]
    rw [List.cons_append, hopen, List.append_assoc, ihinner, List.cons_append, hclose, ih,
      Option.map_map, Option.map_map, Option.map_map]
    simp [Function.comp_def]

theorem balancedFrom_double (cs : List Char) (depth : Nat) (rest : List Char) :
    balancedFrom (some '"') depth (double '"' cs ++ '"' :: rest) =
      (balancedFrom none depth rest).map (double '"' cs ++ '"' :: ·) := by
  induction cs with
  | nil => exact balancedFrom_mark '"' depth rest
  | cons c cs ih =>
    by_cases hc : c = '"'
    · -- the first of two quotes closes the text, and the second one opens it again
      rw [hc, double_cons_self, List.cons_append, List.cons_append, balancedFrom_mark,
        balancedFrom_cons_of_mark (by decide), ih, Option.map_map, Option.map_map]
      rfl
    · rw [double_cons_of_ne hc, List.cons_append, balancedFrom_cons_of_ne hc, ih, Option.map_map]
      rfl

/-- An identifier is gone through, whatever its name. -/
theorem passes_quote (name : String) : Passes (Dialect.sqlite.quote name).toList := by
  intro depth rest
  rw [Dialect.toList_quote, Dialect.quoteMark_sqlite, List.cons_append, List.append_assoc,
    balancedFrom_cons_of_mark (by decide), List.singleton_append, balancedFrom_double,
    Option.map_map]
  simp [Function.comp_def]

theorem passes_quoteList (names : List String) :
    Passes (Dialect.sqlite.quoteList names).toList := by
  rw [Dialect.quoteList, String.toList_intercalate, List.map_map]
  have hcomma : Passes ", ".toList := (closed_of_isPlain (by decide)).passes
  generalize ", ".toList = comma at hcomma ⊢
  induction names with
  | nil => exact .nil
  | cons name names ih =>
    cases names with
    | nil => simpa using passes_quote name
    | cons name' names =>
      rw [List.map_cons, List.map_cons, List.intercalate_cons_cons]
      exact ((passes_quote name).append hcomma).append ih

/-! ### Constraints -/

theorem namedConstraints_of_readHead? {cs name kind rest body : List Char}
    (hhead : readHead? cs = some ((name, kind), rest)) (hbody : balanced rest = some body) :
    namedConstraints cs =
      ⟨String.ofList name, asciiUpper (String.ofList kind), String.ofList (trim body)⟩ ::
        namedConstraints rest := by
  cases cs with
  | nil => cases hhead
  | cons c cs =>
    rw [namedConstraints]
    split
    · rename_i hnone
      rw [hhead] at hnone
      cases hnone
    · rename_i hsome
      rw [hhead] at hsome
      cases hsome
      rw [hbody]

/-- **A constraint is read as it is written:** with its name, its words and its text. The search
goes on in this text. -/
theorem namedConstraints_headText {name body : List Char} (hname : name ≠ [])
    (kind : ConstraintKind) (hbody : Passes body) (rest : List Char) :
    namedConstraints (headText name kind ++ (body ++ ')' :: rest)) =
      ⟨String.ofList name, kind.sql, String.ofList (trim body)⟩ ::
        namedConstraints (body ++ ')' :: rest) := by
  have hkind : asciiUpper (String.ofList kind.sql.toList) = kind.sql := by
    cases kind <;> decide
  rw [namedConstraints_of_readHead? (readHead?_headText hname kind _) (hbody.balanced_append rest),
    hkind]

/-- Nothing is found in the text of a constraint that mentions none. -/
theorem namedConstraints_append_close {body : List Char} (hquiet : mentionsConstraint body = false)
    (rest : List Char) : namedConstraints (body ++ ')' :: rest) = namedConstraints rest := by
  have hclose : namedConstraints ([')'] ++ rest) = namedConstraints rest :=
    namedConstraints_append_of_not_isLetter (by decide)
  rw [namedConstraints_append (isBorder_cons (by decide) (by decide)) hquiet]
  exact hclose

end AdditiveSchema.Reported.Ddl
