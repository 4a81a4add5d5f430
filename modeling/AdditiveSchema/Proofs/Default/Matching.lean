import AdditiveSchema.Proofs.Default.Closing
import AdditiveSchema.Proofs.List

/-!
# Matching parentheses

A default that begins with a quote or a parenthesis is one enclosed text just if the character that
closes what its first one opened is its last. For a quote this is the next one that is not doubled.
For a parenthesis it is the one behind a balanced text, which is said here by counting the
parentheses outside of quoted texts; there is no other such parenthesis.

## Main definitions

* `DefaultExpr.OutsideQuoted` : what stands outside of the quoted texts of a text.
* `DefaultExpr.IsBalanced` : as many parentheses are opened as closed, none before it is opened.
* `DefaultExpr.MatchesFirst` : the parenthesis that matches the first one.
* `DefaultExpr.IsEnclosed` : one quoted text or one group.

## Main results

* `DefaultExpr.OutsideQuoted.closesAtEnd_append` : the way to the parenthesis that closes the last
  open one.
* `DefaultExpr.isBalanced_iff_closed` : matched by counting is matched by nesting.
* `DefaultExpr.closesAtEnd_recognizesEnclosed` : what closes at its end is one enclosed text.
-/

namespace AdditiveSchema.DefaultExpr

open AdditiveSchema.Text

/-! ### Enclosed texts -/

/-- All quoted texts in the text are closed, and `outside` is what stands outside of them. A doubled
quote inside of a quoted text is an escape, so no quote follows the one that closes it. -/
inductive OutsideQuoted : (text outside : List Char) → Prop
  | nil : OutsideQuoted [] []
  | cons {c : Char} {cs out : List Char} (hc : c ≠ '\'') (hcs : OutsideQuoted cs out) :
    OutsideQuoted (c :: cs) (c :: out)
  | quoted (inner : List Char) {cs out : List Char} (hnext : cs.head? ≠ some '\'')
    (hcs : OutsideQuoted cs out) :
    OutsideQuoted ('\'' :: (double '\'' inner ++ '\'' :: cs)) out

/-- The quoted texts are closed. Outside of them, as many parentheses are opened as closed, and none
is closed before it is opened. -/
def IsBalanced (cs : List Char) : Prop :=
  ∃ out, OutsideQuoted cs out ∧ (∀ front, front <+: out → front.count ')' ≤ front.count '(') ∧
    out.count ')' = out.count '('

/-- The parenthesis between `inner` and `rest` matches the one that the text begins with. -/
def MatchesFirst (e inner rest : List Char) : Prop :=
  IsBalanced inner ∧ e = '(' :: (inner ++ ')' :: rest)

/-- One quoted text, with each quote inside of it doubled, or one group: the parenthesis that
matches the first one is the last character. -/
inductive IsEnclosed : List Char → Prop
  | text (s : String) : IsEnclosed (enclose '\'' s).toList
  | group {e inner : List Char} (h : MatchesFirst e inner []) : IsEnclosed e

variable {c : Char} {cs out inner rest : List Char} {depth : Nat}

/-! ### Counting -/

/-- The text closes `depth` parentheses more than it opens, and no part in front of it closes more
than these. -/
def ClosesOpen (depth : Nat) (out : List Char) : Prop :=
  (∀ front, front <+: out → front.count ')' ≤ front.count '(' + depth) ∧
    out.count ')' = out.count '(' + depth

theorem isBalanced_iff : IsBalanced cs ↔ ∃ out, OutsideQuoted cs out ∧ ClosesOpen 0 out :=
  Iff.rfl

theorem closesOpen_nil : ClosesOpen depth [] ↔ depth = 0 := by
  simp [ClosesOpen, eq_comm]

theorem closesOpen_open : ClosesOpen depth ('(' :: out) ↔ ClosesOpen (depth + 1) out := by
  simp [ClosesOpen, forall_prefix_cons_iff, Nat.add_right_comm, Nat.add_assoc]

theorem closesOpen_close : ClosesOpen (depth + 1) (')' :: out) ↔ ClosesOpen depth out := by
  simp [ClosesOpen, forall_prefix_cons_iff, ← Nat.add_assoc]

theorem not_closesOpen_zero_close : ¬ClosesOpen 0 (')' :: out) := by
  intro h
  exact absurd (h.1 [')'] ⟨out, rfl⟩) (by decide)

theorem closesOpen_plain (hopen : c ≠ '(') (hclose : c ≠ ')') :
    ClosesOpen depth (c :: out) ↔ ClosesOpen depth out := by
  simp [ClosesOpen, forall_prefix_cons_iff, hopen, hclose]

/-- What the first character can be to the count. -/
theorem ClosesOpen.cons_cases (h : ClosesOpen depth (c :: out)) :
    (c = '(' ∧ ClosesOpen (depth + 1) out) ∨
    (∃ d, c = ')' ∧ depth = d + 1 ∧ ClosesOpen d out) ∨
    (c ≠ '(' ∧ c ≠ ')' ∧ ClosesOpen depth out) := by
  by_cases hopen : c = '('
  · subst hopen
    exact .inl ⟨rfl, closesOpen_open.mp h⟩
  by_cases hclose : c = ')'
  · subst hclose
    cases depth with
    | zero => exact absurd h not_closesOpen_zero_close
    | succ d => exact .inr (.inl ⟨d, rfl, rfl, closesOpen_close.mp h⟩)
  · exact .inr (.inr ⟨hopen, hclose, (closesOpen_plain hopen hclose).mp h⟩)

theorem ClosesOpen.append {depth' : Nat} {out' : List Char} (h : ClosesOpen depth out)
    (h' : ClosesOpen depth' out') : ClosesOpen (depth + depth') (out ++ out') := by
  induction out generalizing depth with
  | nil =>
    obtain rfl := closesOpen_nil.mp h
    rwa [Nat.zero_add]
  | cons c out ih =>
    rw [List.cons_append]
    rcases h.cons_cases with ⟨rfl, hout⟩ | ⟨d, rfl, rfl, hout⟩ | ⟨hopen, hclose, hout⟩
    · rw [closesOpen_open, Nat.add_right_comm]
      exact ih hout
    · rw [Nat.add_right_comm, closesOpen_close]
      exact ih hout
    · rw [closesOpen_plain hopen hclose]
      exact ih hout

/-! ### The way to the matching parenthesis -/

/-- **The way through a text** that closes all open parentheses but one ends at the parenthesis
behind it. -/
theorem OutsideQuoted.closesAtEnd_append (h : OutsideQuoted inner out)
    (hcloses : ClosesOpen depth out) (rest : List Char) :
    closesAtEnd (depth + 1) false (inner ++ ')' :: rest) = rest.isEmpty := by
  induction h generalizing depth with
  | nil =>
    obtain rfl := closesOpen_nil.mp hcloses
    rw [List.nil_append, closesAtEnd_close]
    rfl
  | @cons c cs out hc _ ih =>
    rw [List.cons_append]
    rcases hcloses.cons_cases with ⟨rfl, hout⟩ | ⟨d, rfl, rfl, hout⟩ | ⟨hopen, hclose, hout⟩
    · rw [closesAtEnd_open]
      exact ih hout
    · rw [closesAtEnd_close, closesRest_succ]
      exact ih hout
    · rw [closesAtEnd_plain hc hopen hclose]
      exact ih hout
  | @quoted quoted cs out hnext _ ih =>
    -- the quote that closes the text stands alone in front of the parenthesis, too
    have hbehind : (cs ++ ')' :: rest).head? ≠ some '\'' := by
      cases cs with
      | nil => exact fun h => absurd (Option.some.inj h) (by decide)
      | cons c cs => exact hnext
    rw [List.cons_append, List.append_assoc, List.cons_append, closesAtEnd_quote,
      closesAtEnd_quoted, readInner?_double hbehind]
    exact ih hcloses

theorem IsBalanced.closesAtEnd_group (h : IsBalanced inner) (rest : List Char) :
    closesAtEnd 0 false ('(' :: (inner ++ ')' :: rest)) = rest.isEmpty := by
  obtain ⟨out, hout, hcloses⟩ := isBalanced_iff.mp h
  rw [closesAtEnd_open]
  exact hout.closesAtEnd_append hcloses rest

/-- No parenthesis of a balanced text closes more than is open in it. -/
theorem IsBalanced.not_isBalanced_append_close (h : IsBalanced inner) (rest : List Char) :
    ¬IsBalanced (inner ++ ')' :: rest) := by
  intro hmore
  -- the way through the longer text in parentheses ends at its last character, and before it
  have hends := hmore.closesAtEnd_group []
  rw [List.append_assoc, List.cons_append, h.closesAtEnd_group] at hends
  simp at hends

/-! ### Counting and nesting -/

namespace OutsideQuoted

/-- A quoted text in front of another one is one quoted text with it. -/
theorem quote (inner : List Char) (h : OutsideQuoted cs out) :
    OutsideQuoted ('\'' :: (double '\'' inner ++ '\'' :: cs)) out := by
  cases h with
  | nil => exact .quoted inner nofun .nil
  | cons hc hcs =>
    exact .quoted inner (fun hhead => hc (Option.some.inj hhead)) (.cons hc hcs)
  | @quoted behind cs _ hnext hcs =>
    -- the quotes between the two texts are a doubled quote of one text
    have hjoin := OutsideQuoted.quoted (inner ++ '\'' :: behind) hnext hcs
    simpa [double] using hjoin

theorem append {cs' out' : List Char} (h : OutsideQuoted cs out) (h' : OutsideQuoted cs' out') :
    OutsideQuoted (cs ++ cs') (out ++ out') := by
  induction h with
  | nil => exact h'
  | cons hc _ ih => exact .cons hc ih
  | quoted inner _ _ ih =>
    rw [List.cons_append, List.append_assoc, List.cons_append]
    exact ih.quote inner

end OutsideQuoted

theorem Closed.isBalanced (h : Closed cs) : IsBalanced cs := by
  induction h with
  | nil => exact ⟨[], .nil, closesOpen_nil.mpr rfl⟩
  | plain hquote hopen hclose _ ih =>
    obtain ⟨out, hout, hcloses⟩ := isBalanced_iff.mp ih
    exact ⟨_, .cons hquote hout, (closesOpen_plain hopen hclose).mpr hcloses⟩
  | quoted inner _ ih =>
    obtain ⟨out, hout, hcloses⟩ := isBalanced_iff.mp ih
    exact ⟨out, hout.quote inner, hcloses⟩
  | group _ _ ihinner ih =>
    obtain ⟨out, hout, hcloses⟩ := isBalanced_iff.mp ihinner
    obtain ⟨out', hout', hcloses'⟩ := isBalanced_iff.mp ih
    have hbehind : ClosesOpen 1 (out ++ ')' :: out') := by
      rw [← Nat.zero_add 1]
      exact hcloses.append (closesOpen_close.mpr hcloses')
    exact ⟨'(' :: (out ++ ')' :: out'), .cons (by decide) (hout.append (.cons (by decide) hout')),
      closesOpen_open.mpr hbehind⟩

/-- **Text is balanced** just if it is closed: what counting says is what the grammar says. -/
theorem isBalanced_iff_closed : IsBalanced cs ↔ Closed cs := by
  refine ⟨fun h => ?_, Closed.isBalanced⟩
  obtain ⟨inner, hinner, heq⟩ := exists_closed_of_closesAtEnd (h.closesAtEnd_group [])
  exact List.append_cancel_right heq ▸ hinner

/-! ### The matching parenthesis -/

namespace MatchesFirst

variable {e p q r t : List Char}

theorem closesAtEnd_eq (h : MatchesFirst e inner rest) :
    closesAtEnd 0 false e = rest.isEmpty :=
  h.2 ▸ h.1.closesAtEnd_group rest

theorem eq_of_prefix (hp : MatchesFirst e p r) (hq : MatchesFirst e q t) (hpq : p <+: q) :
    p = q := by
  obtain ⟨behind, rfl⟩ := hpq
  have htext : p ++ ')' :: r = p ++ (behind ++ ')' :: t) := by
    rw [← List.append_assoc]
    exact (List.cons.inj (hp.2.symm.trans hq.2)).2
  cases behind with
  | nil => rw [List.append_nil]
  | cons c behind =>
    obtain ⟨rfl, -⟩ := List.cons.inj (List.append_cancel_left htext)
    exact absurd hq.1 (hp.1.not_isBalanced_append_close behind)

/-- **The parenthesis that matches the first one** is the only one that does. -/
theorem unique (hp : MatchesFirst e p r) (hq : MatchesFirst e q t) : p = q ∧ r = t := by
  have htext : p ++ ')' :: r = q ++ ')' :: t := (List.cons.inj (hp.2.symm.trans hq.2)).2
  have hpq : p = q := by
    rcases List.prefix_or_prefix_of_prefix ⟨_, htext⟩ (List.prefix_append q _) with h | h
    · exact hp.eq_of_prefix hq h
    · exact (hq.eq_of_prefix hp h).symm
  subst hpq
  exact ⟨rfl, (List.cons.inj (List.append_cancel_left htext)).2⟩

end MatchesFirst

/-! ### Texts that close at their end -/

variable {e : List Char}

theorem closesAtEnd_of_isEnclosed (h : IsEnclosed e) : closesAtEnd 0 false e = true := by
  cases h with
  | text s =>
    have hnil : ([] : List Char).head? ≠ some '\'' := nofun
    rw [toList_enclose, closesAtEnd_quote, closesAtEnd_quoted, readInner?_double hnil]
    rfl
  | group h => exact h.closesAtEnd_eq

theorem isEnclosed_of_closesAtEnd (hopen : e.head? = some '\'' ∨ e.head? = some '(')
    (h : closesAtEnd 0 false e = true) : IsEnclosed e := by
  cases e with
  | nil => simp at hopen
  | cons c cs =>
    rcases hopen with hc | hc <;> obtain rfl := Option.some.inj hc
    · obtain ⟨s, hs⟩ := exists_enclose_of_closesAtEnd h
      exact hs ▸ .text s
    · obtain ⟨inner, hinner, rfl⟩ := exists_closed_of_closesAtEnd h
      exact .group ⟨hinner.isBalanced, rfl⟩

/-- **What closes at its end** is one enclosed text: for a text that begins with a quote or a
parenthesis, the last character closes what the first one opened just if the text is one quoted text
or one group. There is at most one parenthesis that matches the first one. -/
theorem closesAtEnd_recognizesEnclosed (hopen : e.head? = some '\'' ∨ e.head? = some '(') :
    (closesAtEnd 0 false e = true ↔ IsEnclosed e) ∧
    ∀ p q r t, MatchesFirst e p r → MatchesFirst e q t → p = q ∧ r = t :=
  ⟨⟨isEnclosed_of_closesAtEnd hopen, closesAtEnd_of_isEnclosed⟩, fun _ _ _ _ => MatchesFirst.unique⟩

/-- A parenthesis in a quoted text does not close the group around it, and a group that ends before
the text does not enclose it, although the text ends with a parenthesis. -/
theorem closesAtEnd_recognizesEnclosed_quotedParenthesis :
    let quoted := "('a)b')".toList
    let sum := "(a) + (b)".toList
    (quoted.head? = some '(' ∧ IsEnclosed quoted ∧
      ∀ q t, MatchesFirst quoted q t → q = "'a)b'".toList ∧ t = []) ∧
    sum.head? = some '(' ∧ ¬IsEnclosed sum := by
  intro quoted sum
  have hquoted := closesAtEnd_recognizesEnclosed (e := quoted) (.inr rfl)
  have hsum := closesAtEnd_recognizesEnclosed (e := sum) (.inr rfl)
  have hbalanced : IsBalanced "'a)b'".toList := (Closed.quoted "a)b".toList .nil).isBalanced
  have hmatch : MatchesFirst quoted "'a)b'".toList [] := ⟨hbalanced, rfl⟩
  refine ⟨⟨rfl, hquoted.1.mp (by decide +kernel), fun q t h => hquoted.2 _ _ _ _ h hmatch⟩, rfl, ?_⟩
  rw [← hsum.1]
  decide +kernel

end AdditiveSchema.DefaultExpr
