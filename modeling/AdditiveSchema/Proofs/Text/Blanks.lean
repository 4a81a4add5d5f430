import AdditiveSchema.Text.Blank
import Mathlib.Data.List.TakeWhile

/-!
# Blanks at the ends of a text

Trimming takes blanks off a text and nothing else, so a text is its trimmed form between two runs of
blanks, and both have the same characters other than blanks.

## Main results

* `Text.exists_eq_append_trim` : what is taken off.
* `Text.trim_eq_self` : when nothing is taken off.
* `Text.filter_trim` : what is kept.
-/

namespace AdditiveSchema.Text

variable {cs : List Char}

theorem exists_eq_append_trimStart (cs : List Char) :
    ∃ blanks, (∀ c ∈ blanks, isBlank c = true) ∧ cs = blanks ++ trimStart cs :=
  ⟨cs.takeWhile isBlank, List.all_eq_true.mp List.all_takeWhile,
    (List.takeWhile_append_dropWhile).symm⟩

theorem exists_eq_trimEnd_append (cs : List Char) :
    ∃ blanks, (∀ c ∈ blanks, isBlank c = true) ∧ cs = trimEnd cs ++ blanks := by
  refine ⟨(cs.reverse.takeWhile isBlank).reverse, fun c hc => ?_, ?_⟩
  · exact List.mem_takeWhile_imp (List.mem_reverse.mp hc)
  · rw [trimEnd, ← List.reverse_append, List.takeWhile_append_dropWhile, List.reverse_reverse]

/-- **What trimming takes off:** blanks in front and blanks behind. -/
theorem exists_eq_append_trim (cs : List Char) :
    ∃ front behind, (∀ c ∈ front, isBlank c = true) ∧ (∀ c ∈ behind, isBlank c = true) ∧
      cs = front ++ (trim cs ++ behind) := by
  obtain ⟨front, hfront, hcs⟩ := exists_eq_append_trimStart cs
  obtain ⟨behind, hbehind, htext⟩ := exists_eq_trimEnd_append (trimStart cs)
  exact ⟨front, behind, hfront, hbehind, hcs.trans (congrArg (front ++ ·) htext)⟩

theorem head?_trim (cs : List Char) : ∀ c ∈ (trim cs).head?, isBlank c = false := by
  intro c hc
  obtain ⟨behind, -, hbehind⟩ := exists_eq_trimEnd_append (trimStart cs)
  have hhead : (trimStart cs).head? = some c := by
    rw [hbehind, List.head?_append, ← trim, Option.mem_def.mp hc, Option.some_or]
  have hblank := List.head?_dropWhile_not isBlank cs
  rw [← trimStart, hhead] at hblank
  simpa using hblank

theorem trimStart_eq_self (h : ∀ c ∈ cs.head?, isBlank c = false) : trimStart cs = cs := by
  cases cs with
  | nil => rfl
  | cons c cs => exact List.dropWhile_cons_of_neg (by simp [h c rfl])

theorem trimEnd_eq_self (h : ∀ c ∈ cs.getLast?, isBlank c = false) : trimEnd cs = cs := by
  rw [← List.head?_reverse] at h
  exact (congrArg List.reverse (trimStart_eq_self h)).trans cs.reverse_reverse

/-- **Nothing is taken off** a text without blanks at its ends. -/
theorem trim_eq_self (hhead : ∀ c ∈ cs.head?, isBlank c = false)
    (hlast : ∀ c ∈ cs.getLast?, isBlank c = false) : trim cs = cs := by
  rw [trim, trimStart_eq_self hhead, trimEnd_eq_self hlast]

/-- Blanks around a text without blanks at its ends are taken off. -/
theorem trim_append {front behind : List Char} (hfront : ∀ c ∈ front, isBlank c = true)
    (hbehind : ∀ c ∈ behind, isBlank c = true) (hne : cs ≠ [])
    (hhead : ∀ c ∈ cs.head?, isBlank c = false) (hlast : ∀ c ∈ cs.getLast?, isBlank c = false) :
    trim (front ++ (cs ++ behind)) = cs := by
  have hstart : trimStart (front ++ (cs ++ behind)) = cs ++ behind := by
    rw [trimStart, List.dropWhile_append_of_pos hfront]
    refine trimStart_eq_self fun c hc => hhead c ?_
    rwa [List.head?_append, Option.or_of_isSome (List.isSome_head?.mpr hne)] at hc
  have hend : trimEnd (cs ++ behind) = trimEnd cs := by
    rw [trimEnd, List.reverse_append,
      List.dropWhile_append_of_pos fun c hc => hbehind c (List.mem_reverse.mp hc), trimEnd]
  rw [trim, hstart, hend, trimEnd_eq_self hlast]

/-- **All other characters are kept.** -/
theorem filter_trim (cs : List Char) : (trim cs).filter (!isBlank ·) = cs.filter (!isBlank ·) := by
  have hnone {blanks : List Char} (h : ∀ c ∈ blanks, isBlank c = true) :
      blanks.filter (!isBlank ·) = [] :=
    List.filter_eq_nil_iff.mpr fun c hc => by simp [h c hc]
  obtain ⟨front, behind, hfront, hbehind, hcs⟩ := exists_eq_append_trim cs
  refine Eq.symm ((congrArg (List.filter _) hcs).trans ?_)
  rw [List.filter_append, List.filter_append, hnone hfront, hnone hbehind, List.append_nil,
    List.nil_append]

end AdditiveSchema.Text
