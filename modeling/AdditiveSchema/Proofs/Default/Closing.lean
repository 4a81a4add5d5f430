import AdditiveSchema.Dialect.Default
import AdditiveSchema.Proofs.Text.Enclosing
import Mathlib.Data.List.Basic

/-!
# Closed default expressions

A default that begins with a quote or a parenthesis is gone through to the character that closes
what its first one opened. If that is the last character, then the text is one quoted text or one
closed text between parentheses.

## Main definitions

* `DefaultExpr.Closed` : the quotes of a text are closed and its parentheses match.

## Main results

* `DefaultExpr.exists_enclose_of_closesAtEnd` : a text that begins with a quote.
* `DefaultExpr.exists_closed_of_closesAtEnd` : a text that begins with a parenthesis.
-/

namespace AdditiveSchema.DefaultExpr

open AdditiveSchema.Text

/-- The quotes of the text are closed, and outside of quotes its parentheses match. A doubled quote
inside of quotes is an escape. -/
inductive Closed : List Char → Prop
  | nil : Closed []
  | plain {c : Char} {cs : List Char} (hquote : c ≠ '\'') (hopen : c ≠ '(') (hclose : c ≠ ')')
      (h : Closed cs) : Closed (c :: cs)
  | quoted (inner : List Char) {cs : List Char} (h : Closed cs) :
      Closed ('\'' :: (double '\'' inner ++ '\'' :: cs))
  | group {inner cs : List Char} (hinner : Closed inner) (h : Closed cs) :
      Closed ('(' :: (inner ++ ')' :: cs))

variable {cs : List Char} {depth : Nat}

/-- A character that neither opens nor closes anything. -/
def isPlain (c : Char) : Bool :=
  c != '\'' && c != '(' && c != ')'

theorem Closed.plain_append {lead : List Char} (h : Closed cs) (hlead : lead.all isPlain = true) :
    Closed (lead ++ cs) := by
  induction lead with
  | nil => exact h
  | cons c lead ih =>
    obtain ⟨hc, hlead⟩ := Bool.and_eq_true_iff.mp hlead
    obtain ⟨⟨hquote, hopen⟩, hclose⟩ : (c ≠ '\'' ∧ c ≠ '(') ∧ c ≠ ')' := by
      simpa [isPlain] using hc
    exact .plain hquote hopen hclose (ih hlead)

theorem closed_of_plain (h : cs.all isPlain = true) : Closed cs :=
  cs.append_nil ▸ Closed.nil.plain_append h

/-! ### One step of the way -/

/-- What is left closes the parentheses that are still open, and no more. -/
def closesRest (depth : Nat) (cs : List Char) : Bool :=
  if depth = 0 then cs.isEmpty else closesAtEnd depth false cs

theorem closesAtEnd_quote (depth : Nat) (cs : List Char) :
    closesAtEnd depth false ('\'' :: cs) = closesAtEnd depth true cs := by
  cases cs with
  | nil => simp [closesAtEnd]
  | cons c cs =>
    by_cases hc : c = '\''
    · subst hc
      rw [closesAtEnd]
      rfl
    · rw [closesAtEnd.eq_def]
      simp [hc]

theorem closesAtEnd_open (depth : Nat) (cs : List Char) :
    closesAtEnd depth false ('(' :: cs) = closesAtEnd (depth + 1) false cs := by
  simp [closesAtEnd]

theorem closesAtEnd_close (depth : Nat) (cs : List Char) :
    closesAtEnd (depth + 1) false (')' :: cs) = closesRest depth cs := by
  simp [closesAtEnd, closesRest]

theorem closesAtEnd_plain {c : Char} (hquote : c ≠ '\'') (hopen : c ≠ '(') (hclose : c ≠ ')')
    (depth : Nat) (cs : List Char) :
    closesAtEnd depth false (c :: cs) = closesAtEnd depth false cs := by
  simp [closesAtEnd, hquote, hopen, hclose]

/-- **The way through a quoted text** goes to the quote that closes it. -/
theorem closesAtEnd_quoted (depth : Nat) (cs : List Char) :
    closesAtEnd depth true cs =
      (readInner? '\'' cs).any fun (_, rest) => closesRest depth rest := by
  fun_induction readInner? '\'' cs with
  | case1 => simp [closesAtEnd]
  | case2 => simp [closesAtEnd, closesRest]
  | case3 cs ih =>
    rw [Option.any_map, closesAtEnd]
    exact ih
  | case4 c cs hc =>
    rw [closesAtEnd.eq_def]
    simp [hc, closesRest]
  | case5 c cs hc ih =>
    have hstep : closesAtEnd depth true (c :: cs) = closesAtEnd depth true cs := by
      simp [closesAtEnd, hc]
    rw [Option.any_map, hstep]
    exact ih

theorem closesRest_succ (depth : Nat) (cs : List Char) :
    closesRest (depth + 1) cs = closesAtEnd (depth + 1) false cs :=
  if_neg depth.succ_ne_zero

/-! ### The whole way -/

/-- In front of the parenthesis that closes the innermost open one, the text is closed. The
induction is on the length of the text, because a group is gone through first inside and then behind
it. -/
theorem exists_closed_append (h : closesAtEnd (depth + 1) false cs = true) :
    ∃ inner rest, cs = inner ++ ')' :: rest ∧ Closed inner ∧ closesRest depth rest = true := by
  induction hn : cs.length using Nat.strongRecOn generalizing cs depth with
  | ind n ih =>
    subst hn
    cases cs with
    | nil => simp [closesAtEnd] at h
    | cons c cs =>
      by_cases hquote : c = '\''
      · subst hquote
        rw [closesAtEnd_quote, closesAtEnd_quoted, Option.any_eq_true] at h
        obtain ⟨⟨quoted, behind⟩, hread, hbehind⟩ := h
        obtain ⟨rfl, -⟩ := eq_double_of_readInner? hread
        replace hbehind : closesAtEnd (depth + 1) false behind = true :=
          (closesRest_succ depth behind).symm.trans hbehind
        obtain ⟨inner, rest, rfl, hinner, hrest⟩ := ih behind.length (by simp; omega) hbehind rfl
        exact ⟨_, rest, by simp, .quoted quoted hinner, hrest⟩
      by_cases hopen : c = '('
      · subst hopen
        rw [closesAtEnd_open] at h
        obtain ⟨group, behind, rfl, hgroup, hbehind⟩ := ih cs.length (by simp) h rfl
        rw [closesRest_succ] at hbehind
        obtain ⟨inner, rest, rfl, hinner, hrest⟩ := ih behind.length (by simp; omega) hbehind rfl
        exact ⟨_, rest, by simp, .group hgroup hinner, hrest⟩
      by_cases hclose : c = ')'
      · subst hclose
        rw [closesAtEnd_close] at h
        exact ⟨[], cs, rfl, .nil, h⟩
      · rw [closesAtEnd_plain hquote hopen hclose] at h
        obtain ⟨inner, rest, rfl, hinner, hrest⟩ := ih cs.length (by simp) h rfl
        exact ⟨c :: inner, rest, rfl, .plain hquote hopen hclose hinner, hrest⟩

/-- **A text that begins with a quote** and closes at its end is one quoted text. -/
theorem exists_enclose_of_closesAtEnd (h : closesAtEnd 0 false ('\'' :: cs) = true) :
    ∃ s, '\'' :: cs = (enclose '\'' s).toList := by
  rw [closesAtEnd_quote, closesAtEnd_quoted, Option.any_eq_true] at h
  obtain ⟨⟨inner, rest⟩, hread, hrest⟩ := h
  obtain ⟨rfl, -⟩ := eq_double_of_readInner? hread
  obtain rfl : rest = [] := List.isEmpty_iff.mp hrest
  exact ⟨String.ofList inner, by rw [toList_enclose, String.toList_ofList]⟩

/-- **A text that begins with a parenthesis** and closes at its end is closed inside of it. -/
theorem exists_closed_of_closesAtEnd (h : closesAtEnd 0 false ('(' :: cs) = true) :
    ∃ inner, Closed inner ∧ cs = inner ++ [')'] := by
  rw [closesAtEnd_open] at h
  obtain ⟨inner, rest, rfl, hinner, hrest⟩ := exists_closed_append h
  obtain rfl : rest = [] := List.isEmpty_iff.mp hrest
  exact ⟨inner, hinner, rfl⟩

end AdditiveSchema.DefaultExpr
