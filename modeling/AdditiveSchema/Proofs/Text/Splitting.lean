import AdditiveSchema.Text.Basic

/-!
# Cutting text at a separator

A text is as good as the row of its parts: cutting loses only the separators, and texts that are put
in a row with separators between them are cut into the parts of one after those of the other.

## Main results

* `Text.splitAt_eq_splitOn` : the parts of a text.
* `Text.split_intercalate` : the parts of texts in a row.
* `Text.split_inj` : texts with the same parts.
* `Text.intercalate_split` : the text of its parts.
-/

namespace AdditiveSchema.Text

theorem splitAt_eq_splitOn (separator : Char) (cs : List Char) :
    splitAt separator cs = cs.splitOn separator := by
  induction cs with
  | nil => rfl
  | cons c cs ih =>
    rw [splitAt, List.splitOn_cons_eq_if_modifyHead, ih]
    by_cases hc : c = separator
    · simp [hc]
    · obtain ⟨part, parts, hparts⟩ := List.exists_cons_of_ne_nil (List.splitOn_ne_nil separator cs)
      simp [hc, hparts]

theorem length_splitAt (separator : Char) (cs : List Char) :
    (splitAt separator cs).length = cs.count separator + 1 := by
  induction cs with
  | nil => rfl
  | cons c cs ih =>
    rw [splitAt]
    split
    · rename_i hc
      rw [List.length_cons, ih, hc, List.count_cons_self]
    · rename_i hc
      rw [List.count_cons_of_ne hc, ← ih]
      split
      · rename_i hnil
        rw [hnil] at ih
        cases ih
      · rename_i hcons
        rw [hcons]
        rfl

/-- A text without separator is one part. -/
theorem splitAt_of_notMem {separator : Char} {cs : List Char} (h : separator ∉ cs) :
    splitAt separator cs = [cs] := by
  rw [splitAt_eq_splitOn, List.splitOn_eq_singleton h]

theorem splitAt_append {separator : Char} {cs : List Char} (h : separator ∉ cs) (rest : List Char) :
    splitAt separator (cs ++ separator :: rest) = cs :: splitAt separator rest := by
  rw [splitAt_eq_splitOn, splitAt_eq_splitOn, List.splitOn_append_cons_self_of_not_mem h]

/-- No part has the separator in it. -/
theorem notMem_of_mem_splitAt {separator : Char} {cs part : List Char}
    (h : part ∈ splitAt separator cs) : separator ∉ part := by
  induction cs generalizing part with
  | nil =>
    rw [List.mem_singleton.mp h]
    exact List.not_mem_nil
  | cons c cs ih =>
    rw [splitAt] at h
    split at h
    · rcases List.mem_cons.mp h with rfl | h
      · exact List.not_mem_nil
      · exact ih h
    · rename_i hc
      split at h
      · rw [List.mem_singleton.mp h, List.mem_singleton]
        exact Ne.symm hc
      · rename_i first parts hparts
        rcases List.mem_cons.mp h with rfl | h
        · rw [List.mem_cons, not_or]
          exact ⟨Ne.symm hc, ih (hparts ▸ List.mem_cons_self)⟩
        · exact ih (hparts ▸ List.mem_cons_of_mem first h)

/-! ### Strings -/

theorem split_of_notMem {separator : Char} {s : String} (h : separator ∉ s.toList) :
    split separator s = [s] := by
  rw [split, splitAt_of_notMem h, List.map_singleton, String.ofList_toList]

/-- A text with a separator in it is cut into what stands before it and what stands behind it. -/
theorem split_append (separator : Char) (s t : String) :
    split separator (s ++ String.singleton separator ++ t) =
      split separator s ++ split separator t := by
  simp only [split, splitAt_eq_splitOn, String.toList_append, String.toList_singleton,
    List.append_assoc, List.singleton_append, List.splitOn_append_cons_self, List.map_append]

/-- **The parts of texts in a row** are the parts of each, one text after the other. -/
theorem split_intercalate (separator : Char) {texts : List String} (h : texts ≠ []) :
    split separator ((String.singleton separator).intercalate texts) =
      texts.flatMap (split separator) := by
  induction texts with
  | nil => exact absurd rfl h
  | cons s texts ih =>
    cases texts with
    | nil => rw [String.intercalate_singleton, List.flatMap_singleton]
    | cons t texts =>
      rw [String.intercalate_cons_cons, split_append, ih (List.cons_ne_nil _ _),
        ← List.flatMap_cons]

/-- **Texts with the same parts** are the same. -/
theorem split_inj (separator : Char) {s t : String} :
    split separator s = split separator t ↔ s = t := by
  refine ⟨fun h => ?_, congrArg (split separator)⟩
  have hparts : s.toList.splitOn separator = t.toList.splitOn separator := by
    rw [← splitAt_eq_splitOn, ← splitAt_eq_splitOn]
    exact (List.map_inj_right fun _ _ => String.ofList_injective).mp h
  have hjoined := congrArg (List.intercalate [separator]) hparts
  rwa [List.intercalate_splitOn, List.intercalate_splitOn, String.toList_inj] at hjoined

theorem notMem_of_mem_split {separator : Char} {s part : String} (h : part ∈ split separator s) :
    separator ∉ part.toList := by
  obtain ⟨cs, hcs, rfl⟩ := List.mem_map.mp h
  rw [String.toList_ofList]
  exact notMem_of_mem_splitAt hcs

theorem split_ne_nil (separator : Char) (s : String) : split separator s ≠ [] := by
  rw [split, splitAt_eq_splitOn]
  exact mt List.map_eq_nil_iff.mp (List.splitOn_ne_nil _ _)

/-- **The parts with separators between them** are the text. -/
theorem intercalate_split (separator : Char) (s : String) :
    (String.singleton separator).intercalate (split separator s) = s := by
  have hparts : (split separator s).map (split separator) =
      (split separator s).map fun part => [part] :=
    List.map_congr_left fun part hpart => split_of_notMem (notMem_of_mem_split hpart)
  rw [← split_inj separator, split_intercalate separator (split_ne_nil separator s),
    List.flatMap_def, hparts, ← List.flatMap_def, List.flatMap_singleton']

/-! ### The first separator -/

theorem splitFirst?_of_notMem {separator : Char} {cs : List Char} (h : separator ∉ cs) :
    splitFirst? separator cs = none := by
  induction cs with
  | nil => rfl
  | cons c cs ih =>
    rw [List.mem_cons, not_or] at h
    rw [splitFirst?, if_neg (Ne.symm h.1), ih h.2, Option.map_none]

theorem splitFirst?_append {separator : Char} {cs : List Char} (h : separator ∉ cs)
    (ds : List Char) : splitFirst? separator (cs ++ separator :: ds) = some (cs, ds) := by
  induction cs with
  | nil => simp [splitFirst?]
  | cons c cs ih =>
    rw [List.mem_cons, not_or] at h
    rw [List.cons_append, splitFirst?, if_neg (Ne.symm h.1), ih h.2, Option.map_some]

end AdditiveSchema.Text
