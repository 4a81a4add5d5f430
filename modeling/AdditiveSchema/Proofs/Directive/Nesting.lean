import AdditiveSchema.Proofs.Directive.Positions
import AdditiveSchema.Proofs.Directive.Writing
import Mathlib.Data.List.Infix

/-!
# Values that are read in turn

A directive can be read if and only if its braces match. It is a row of values, each of which has
matching braces itself. A modifier splits its value at the first equals sign, wherever this stands:
if it stands inside of braces, then neither the name nor the value of the modifier is balanced. If
it stands outside of them, then the text behind it is balanced, and so is what is left of it when
two braces that belong together are taken off its ends.

## Main definitions

* `IsRowOfValues` : the values of a text, one behind the other.
* `IsOneGroup` : a text is one pair of braces with all that is between them.
* `EndsMatch` : the braces that are taken off a value belong together.

## Main results

* `exists_modifiers_iff`, `exists_valueAndModifiers_iff` : which texts can be read.
* `modifiersAt_eq_ok_iff` : the modifiers of a text are its values, split.
* `Modifier.isBalanced_value_iff` : when the value of a modifier is balanced.
-/

namespace AdditiveSchema.Directive

open AdditiveSchema.Text

variable {pos : Nat} {cs value rest : List Char} {values : List (List Char)}

/-! ### Which texts can be read -/

/-- An error points at a brace only if the braces of the text do not match. -/
theorem LexError.PointsInto.not_isBalanced {e : LexError} {read front behind : List Char}
    (h : e.PointsInto pos cs read front behind) : ¬IsBalanced cs := by
  intro hbalanced
  have hread := h.read.count_eq
  have hfront := h.front.count_eq
  have htext := h.text_eq
  cases hreason : e.reason with
  | unmatchedClosing =>
    rw [hreason, Reason.brace] at htext
    have hprefix : read ++ (front ++ ['}']) <+: cs := ⟨behind, by simp [htext]⟩
    have hle := hbalanced.count_le _ hprefix
    simp only [List.count_append, List.count_singleton] at hle
    simp at hle
    omega
  | unclosed =>
    rw [hreason, Reason.brace] at htext
    have hbehind := h.unclosed hreason behind List.prefix_rfl
    have heq := hbalanced.count_eq
    rw [htext] at heq
    simp at heq
    omega

theorem isBalanced_of_modifiersAt {ms : List Modifier} (h : modifiersAt pos cs = .ok ms) :
    IsBalanced cs := by
  fun_induction modifiersAt pos cs generalizing ms with
  | case1 => exact isBalanced_nil
  | case2 => cases h
  | case3 pos cs hne value rest hcut hlength ih =>
    obtain ⟨behind, hrest, -⟩ := Except.map_eq_ok_iff.mp h
    obtain ⟨taken, rfl, htaken⟩ := exists_eq_append_of_cutAt hcut
    exact htaken.append (ih hrest)

/-- **The texts that can be read** are those whose braces match. -/
theorem exists_modifiersAt_iff : (∃ ms, modifiersAt pos cs = .ok ms) ↔ IsBalanced cs := by
  constructor
  · rintro ⟨ms, h⟩
    exact isBalanced_of_modifiersAt h
  · intro h
    cases hread : modifiersAt pos cs with
    | ok ms => exact ⟨ms, rfl⟩
    | error e =>
      obtain ⟨read, front, behind, hpoints⟩ := pointsInto_of_modifiersAt hread
      exact absurd h hpoints.not_isBalanced

theorem exists_modifiers_iff {s : String} :
    (∃ ms, modifiers s = .ok ms) ↔ IsBalanced s.toList :=
  exists_modifiersAt_iff

theorem exists_valueAndModifiers_iff {s : String} :
    (∃ read, valueAndModifiers s = .ok read) ↔ IsBalanced s.toList := by
  constructor
  · rintro ⟨read, h⟩
    obtain ⟨⟨value, rest⟩, hcut, h⟩ := Except.bind_eq_ok_iff.mp h
    obtain ⟨ms, hrest, -⟩ := Except.bind_eq_ok_iff.mp h
    obtain ⟨taken, hs, htaken⟩ := exists_eq_append_of_cutAt hcut
    exact hs ▸ htaken.append (isBalanced_of_modifiersAt hrest)
  · intro h
    cases hread : valueAndModifiers s with
    | ok read => exact ⟨read, rfl⟩
    | error e =>
      obtain ⟨read, front, behind, hpoints⟩ := pointsInto_of_valueAndModifiers hread
      exact absurd h hpoints.not_isBalanced

/-! ### Rows of values -/

/-- The values of a text, one behind the other. Values without a character are left out. -/
inductive IsRowOfValues : (text : List Char) → (values : List (List Char)) → Prop
  | nil : IsRowOfValues [] []
  | cons {text value rest : List Char} {values : List (List Char)} (hne : text ≠ [])
    (hvalue : IsFirstValue (trimStart text) value rest) (hrest : IsRowOfValues rest values) :
    IsRowOfValues text (if value.isEmpty then values else value :: values)

theorem isRowOfValues_nil_iff : IsRowOfValues [] values ↔ values = [] := by
  constructor
  · intro h
    generalize htext : ([] : List Char) = text at h
    cases h with
    | nil => rfl
    | cons hne => exact absurd htext.symm hne
  · rintro rfl
    exact .nil

theorem isRowOfValues_iff (pos : Nat) (hne : cs ≠ []) :
    IsRowOfValues cs values ↔ ∃ value rest behind, cutAt pos cs = .ok (value, rest) ∧
      IsRowOfValues rest behind ∧ values = if value.isEmpty then behind else value :: behind := by
  constructor
  · intro h
    cases h with
    | nil => exact absurd rfl hne
    | cons _ hvalue hrest => exact ⟨_, _, _, cutAt_eq_ok_iff.mpr hvalue, hrest, rfl⟩
  · rintro ⟨value, rest, behind, hcut, hrest, rfl⟩
    exact .cons hne (cutAt_eq_ok_iff.mp hcut) hrest

/-- **The modifiers of a text** are its values, each of them split into a name and a value. -/
theorem modifiersAt_eq_ok_iff {ms : List Modifier} :
    modifiersAt pos cs = .ok ms ↔
      ∃ values, IsRowOfValues cs values ∧ ms = values.map Modifier.ofValue := by
  fun_induction modifiersAt pos cs generalizing ms with
  | case1 => simp [isRowOfValues_nil_iff, eq_comm]
  | case2 pos cs hne e hcut => simp [isRowOfValues_iff pos hne, hcut]
  | case3 pos cs hne value rest hcut hlength ih =>
    simp only [Except.map_eq_ok_iff, ih, isRowOfValues_iff pos hne, hcut]
    constructor
    · rintro ⟨_, ⟨values, hrest, rfl⟩, rfl⟩
      refine ⟨_, ⟨value, rest, values, rfl, hrest, rfl⟩, ?_⟩
      split <;> rfl
    · rintro ⟨_, ⟨_, _, values, ⟨⟩, hrest, rfl⟩, rfl⟩
      refine ⟨_, ⟨values, hrest, rfl⟩, ?_⟩
      split <;> rfl

theorem IsFirstValue.isBalanced {text : List Char} (h : IsFirstValue text value rest) :
    IsBalanced value := by
  cases h with
  | nothing => exact isBalanced_nil
  | braced hvalue => exact hvalue
  | bare _ _ hvalue => exact hvalue

/-- Each value of a row has matching braces. -/
theorem IsRowOfValues.isBalanced (h : IsRowOfValues cs values) :
    ∀ value ∈ values, IsBalanced value := by
  induction h with
  | nil => exact nofun
  | cons hne hvalue hrest ih =>
    split
    · exact ih
    · exact List.forall_mem_cons.mpr ⟨hvalue.isBalanced, ih⟩

/-! ### Values of modifiers -/

/-- The text is a pair of braces with all that is between them: no part in front of it has matching
braces but the text itself. -/
def IsOneGroup (text : List Char) : Prop :=
  ∀ front, front <+: text → front ≠ [] → IsBalanced front → front = text

/-- Where the text behind the first equals sign begins with an opening brace and ends with a closing
one, these two belong together. -/
def EndsMatch (value : List Char) : Prop :=
  ∀ name text, splitFirst? '=' value = some (name, text) → text.head? = some '{' →
    text.getLast? = some '}' → IsOneGroup text

theorem isOneGroup_iff_inits {text : List Char} :
    IsOneGroup text ↔ ∀ front ∈ text.inits, front ≠ [] → IsBalanced front → front = text := by
  simp only [IsOneGroup, List.mem_inits]

instance (text : List Char) : Decidable (IsOneGroup text) :=
  decidable_of_iff _ isOneGroup_iff_inits.symm

instance (value : List Char) : Decidable (EndsMatch value) :=
  match h : splitFirst? '=' value with
  | none => isTrue fun name text hsplit => by simp [h] at hsplit
  | some (name, text) =>
    decidable_of_iff
      (text.head? = some '{' → text.getLast? = some '}' → IsOneGroup text)
      ⟨fun hends name' text' hsplit => by
        cases h.symm.trans hsplit
        exact hends,
      fun hends => hends name text h⟩

/-- Of two parts of a balanced text, one is balanced if the other is. -/
theorem IsBalanced.right_iff_left {ds : List Char} (h : IsBalanced (cs ++ ds)) :
    IsBalanced ds ↔ IsBalanced cs := by
  constructor
  · intro hds
    have hcount := h.count_eq
    have := hds.count_eq
    rw [List.count_append, List.count_append] at hcount
    exact ⟨by omega, fun front hfront =>
      h.count_le front (hfront.trans (List.prefix_append cs ds))⟩
  · intro hcs
    rw [isBalanced_iff, depthBehind_append, isBalanced_iff.mp hcs, Option.bind_some] at h
    exact isBalanced_iff.mpr h

theorem isBalanced_cons_iff {c : Char} (hopen : c ≠ '{') (hclose : c ≠ '}') :
    IsBalanced (c :: cs) ↔ IsBalanced cs := by
  rw [isBalanced_iff, isBalanced_iff, depthBehind_cons, stepDepth_of_ne hopen hclose,
    Option.bind_some]

/-- What is between two braces that belong together is balanced. -/
theorem IsOneGroup.isBalanced {inside : List Char} (h : IsOneGroup ('{' :: (inside ++ ['}'])))
    (hbalanced : IsBalanced ('{' :: (inside ++ ['}']))) : IsBalanced inside := by
  have hcount := hbalanced.count_eq
  simp at hcount
  refine ⟨hcount, fun front hfront => ?_⟩
  have hprefix : '{' :: front <+: '{' :: (inside ++ ['}']) :=
    List.cons_prefix_cons.mpr ⟨rfl, hfront.trans (List.prefix_append _ _)⟩
  have hle := hbalanced.count_le _ hprefix
  have hne : ¬IsBalanced ('{' :: front) := by
    intro hgroup
    have hlength := congrArg List.length (h _ hprefix (List.cons_ne_nil _ _) hgroup)
    have := hfront.length_le
    simp at hlength
    omega
  -- If the part closed one brace more than it opens, then the group would end with it.
  by_contra hlt
  refine hne ⟨?_, fun more hmore => hbalanced.count_le more (hmore.trans hprefix)⟩
  simp at hle ⊢
  omega

/-- Taking off braces that belong together neither makes nor breaks a match. -/
theorem isBalanced_stripBraces_iff {text : List Char}
    (h : text.head? = some '{' → text.getLast? = some '}' → IsOneGroup text) :
    IsBalanced (stripBraces text) ↔ IsBalanced text := by
  unfold stripBraces
  split
  · rename_i hends
    obtain ⟨hlength, hhead, hlast⟩ := hends
    obtain ⟨behind, rfl⟩ := List.head?_eq_some_iff.mp hhead
    have hbehind : behind ≠ [] := by
      rintro rfl
      simp at hlength
    obtain ⟨inside, hinside⟩ : ∃ inside, behind = inside ++ ['}'] := by
      rw [List.getLast?_cons_of_ne_nil hbehind] at hlast
      exact List.getLast?_eq_some_iff.mp hlast
    subst hinside
    rw [inner_cons_append]
    exact ⟨IsBalanced.braces, (h hhead hlast).isBalanced⟩
  · exact Iff.rfl

theorem exists_of_splitFirst? {separator : Char} {text before behind : List Char}
    (h : splitFirst? separator text = some (before, behind)) :
    text = before ++ separator :: behind := by
  induction text generalizing before with
  | nil => cases h
  | cons c cs ih =>
    rw [splitFirst?] at h
    split at h
    · rename_i hc
      cases h
      rw [hc, List.nil_append]
    · obtain ⟨⟨front, rest⟩, hcs, heq⟩ := Option.map_eq_some_iff.mp h
      cases heq
      rw [ih hcs, List.cons_append]

/-- **When the value of a modifier is balanced:** just if its name is, that is if the equals sign
stands outside of braces. -/
theorem Modifier.isBalanced_value_iff (hvalue : IsBalanced value) (hends : EndsMatch value) :
    IsBalanced (ofValue value).value.toList ↔ IsBalanced (ofValue value).name.toList := by
  unfold ofValue
  split
  · simpa [hvalue] using isBalanced_nil
  · rename_i name text hsplit
    rw [exists_of_splitFirst? hsplit] at hvalue
    rw [String.toList_ofList, String.toList_ofList, ← hvalue.right_iff_left,
      isBalanced_cons_iff (by decide) (by decide)]
    exact isBalanced_stripBraces_iff (hends name text hsplit)

end AdditiveSchema.Directive
