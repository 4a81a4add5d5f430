import AdditiveSchema.Text.Basic
import Mathlib.Data.List.Basic

/-!
# Reading texts between marks

A text between marks is read from its opening mark to the first mark that stands alone, and a
doubled mark inside stands for one. This reads what was enclosed, whatever marks are in it, and
nothing else.

## Main definitions

* `Text.readEnclosed?` : the text between the marks and what stands behind them.

## Main results

* `Text.readEnclosed?_eq_some_iff` : what is read is what was enclosed.
-/

namespace AdditiveSchema.Text

/-- Reads to the first mark that stands alone. -/
def readInner? (mark : Char) : List Char → Option (List Char × List Char)
  | [] => none
  | c :: cs =>
    if c = mark then
      match cs with
      | [] => some ([], [])
      | c' :: cs' =>
        if c' = mark then (readInner? mark cs').map fun (inner, rest) => (mark :: inner, rest)
        else some ([], c' :: cs')
    else (readInner? mark cs).map fun (inner, rest) => (c :: inner, rest)

/-- Reads a text between marks, with each mark inside written twice: the text and what stands behind
the closing mark. -/
def readEnclosed? (mark : Char) : List Char → Option (String × List Char)
  | [] => none
  | c :: cs =>
    if c = mark then (readInner? mark cs).map fun (inner, rest) => (String.ofList inner, rest)
    else none

variable {mark : Char} {cs inner rest : List Char}

theorem double_cons_self (mark : Char) (cs : List Char) :
    double mark (mark :: cs) = mark :: mark :: double mark cs := by
  simp [double]

theorem double_cons_of_ne {c : Char} (hc : c ≠ mark) (cs : List Char) :
    double mark (c :: cs) = c :: double mark cs := by
  simp [double, hc]

theorem toList_enclose (mark : Char) (s : String) :
    (enclose mark s).toList = mark :: (double mark s.toList ++ [mark]) := by
  rw [enclose, String.toList_ofList, List.cons_append]

theorem readInner?_cons_of_ne {c : Char} (hc : c ≠ mark) (cs : List Char) :
    readInner? mark (c :: cs) =
      (readInner? mark cs).map fun (inner, rest) => (c :: inner, rest) := by
  rw [readInner?.eq_def]
  exact if_neg hc

/-- Doubled marks are read as marks, and the closing one stands alone. -/
theorem readInner?_double (hrest : rest.head? ≠ some mark) (inner : List Char) :
    readInner? mark (double mark inner ++ mark :: rest) = some (inner, rest) := by
  induction inner with
  | nil =>
    cases rest with
    | nil => simp [double, readInner?]
    | cons c rest =>
      have hc : c ≠ mark := fun h => hrest (congrArg some h)
      simp [double, readInner?, hc]
  | cons c inner ih =>
    by_cases hc : c = mark
    · subst hc
      rw [double_cons_self, List.cons_append, List.cons_append]
      simp [readInner?, ih]
    · rw [double_cons_of_ne hc, List.cons_append, readInner?_cons_of_ne hc, ih]
      rfl

/-- What was read stands in front of a mark that stands alone, with its marks doubled. -/
theorem eq_double_of_readInner? (h : readInner? mark cs = some (inner, rest)) :
    cs = double mark inner ++ mark :: rest ∧ rest.head? ≠ some mark := by
  fun_induction readInner? mark cs generalizing inner rest with
  | case1 => cases h
  | case2 =>
    cases h
    exact ⟨rfl, nofun⟩
  | case3 cs ih =>
    obtain ⟨⟨inner, rest⟩, hread, heq⟩ := Option.map_eq_some_iff.mp h
    cases heq
    obtain ⟨rfl, hrest⟩ := ih hread
    exact ⟨by rw [double_cons_self, List.cons_append, List.cons_append], hrest⟩
  | case4 c cs hc =>
    cases h
    exact ⟨rfl, fun hhead => hc (Option.some.inj hhead)⟩
  | case5 c cs hc ih =>
    obtain ⟨⟨inner, rest⟩, hread, heq⟩ := Option.map_eq_some_iff.mp h
    cases heq
    obtain ⟨rfl, hrest⟩ := ih hread
    exact ⟨by rw [double_cons_of_ne hc, List.cons_append], hrest⟩

/-- **What is read is what was enclosed,** up to a mark that is not doubled. -/
theorem readEnclosed?_eq_some_iff {s : String} :
    readEnclosed? mark cs = some (s, rest) ↔
      cs = (enclose mark s).toList ++ rest ∧ rest.head? ≠ some mark := by
  rw [toList_enclose, List.cons_append, List.append_assoc, List.singleton_append]
  constructor
  · intro h
    cases cs with
    | nil => cases h
    | cons c cs =>
      rw [readEnclosed?] at h
      split at h
      · rename_i hc
        obtain ⟨⟨inner, rest⟩, hread, heq⟩ := Option.map_eq_some_iff.mp h
        cases heq
        obtain ⟨rfl, hrest⟩ := eq_double_of_readInner? hread
        exact ⟨by rw [hc, String.toList_ofList], hrest⟩
      · cases h
  · rintro ⟨rfl, hrest⟩
    rw [readEnclosed?, if_pos rfl, readInner?_double hrest]
    exact congrArg (fun t => some (t, rest)) String.ofList_toList

end AdditiveSchema.Text
