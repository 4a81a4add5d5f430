import AdditiveSchema.Proofs.Directive.Nesting

/-!
# Texts behind a directive

The values of a directive do not depend on what comes behind a blank, so a text can be appended to
it, and its modifiers come behind those of the directive. In particular, blanks at either end of a
text do not count. A modifier can be appended with any value whose braces match, even with an empty
one, if the value stands between braces.

## Main definitions

* `bracedText` : the text of a modifier with its value between braces.

## Main results

* `IsRowOfValues.append` : the values of one text behind another.
* `modifiers_append_braced`, `exists_modifiers_append_braced_iff` : a directive with one more
  modifier.
* `valueAndModifiers_trimmed` : a text without the blanks at its ends.
-/

namespace AdditiveSchema.Directive

open AdditiveSchema.Text

variable {pos : Nat} {cs ds value rest blanks : List Char} {values values' : List (List Char)}

/-! ### Rows of values -/

theorem trimStart_append_of_ne_nil (h : trimStart cs ≠ []) (ds : List Char) :
    trimStart (cs ++ ds) = trimStart cs ++ ds := by
  rw [trimStart, List.dropWhile_append, if_neg]
  · rfl
  · rwa [List.isEmpty_iff]

theorem trimStart_eq_nil_iff : trimStart cs = [] ↔ ∀ c ∈ cs, isBlank c = true :=
  List.dropWhile_eq_nil_iff

/-- Blanks in front do not count. -/
theorem trimStart_blanks_append (h : ∀ c ∈ blanks, isBlank c = true) (cs : List Char) :
    trimStart (blanks ++ cs) = trimStart cs :=
  List.dropWhile_append_of_pos h

theorem isBlank_of_trimStart_eq_cons {c : Char} (h : trimStart cs = c :: ds) : isBlank c = false :=
  @head?_trimStart cs c (by rw [h, List.head?_cons])

/-- A value stays the first one if a blank comes behind the text. -/
theorem IsFirstValue.append (h : IsFirstValue cs value rest) (hne : cs ≠ [])
    (hds : ∀ c ∈ ds.head?, isBlank c = true) : IsFirstValue (cs ++ ds) value (rest ++ ds) := by
  cases h with
  | nothing => exact absurd rfl hne
  | braced hvalue =>
    rw [List.cons_append, List.append_assoc, List.cons_append]
    exact .braced hvalue
  | bare hnonempty hopen hvalue hblanks hrest =>
    rw [List.append_assoc]
    refine .bare hnonempty hopen hvalue hblanks ?_
    cases rest with
    | nil => exact hds
    | cons c rest => exact hrest

theorem IsRowOfValues.blanks_append (h : IsRowOfValues cs values) (hne : cs ≠ [])
    (hblanks : ∀ c ∈ blanks, isBlank c = true) : IsRowOfValues (blanks ++ cs) values := by
  cases h with
  | nil => exact absurd rfl hne
  | cons _ hvalue hrest =>
    rw [← trimStart_blanks_append hblanks] at hvalue
    exact .cons (List.append_ne_nil_of_right_ne_nil blanks hne) hvalue hrest

/-- **The values of one text behind another,** if a blank stands between them. -/
theorem IsRowOfValues.append (h : IsRowOfValues cs values) (h' : IsRowOfValues ds values')
    (hds : ∀ c ∈ ds.head?, isBlank c = true) : IsRowOfValues (cs ++ ds) (values ++ values') := by
  by_cases hnil : ds = []
  · subst hnil
    rw [isRowOfValues_nil_iff.mp h', List.append_nil, List.append_nil]
    exact h
  · induction h with
    | nil => exact h'
    | cons hne hvalue hrest ih =>
      rename_i text value rest values
      by_cases hblank : trimStart text = []
      · rw [hblank, isFirstValue_nil_iff] at hvalue
        obtain ⟨rfl, rfl⟩ := hvalue
        rw [isRowOfValues_nil_iff.mp hrest]
        exact h'.blanks_append hnil (trimStart_eq_nil_iff.mp hblank)
      · have hfirst := hvalue.append hblank hds
        rw [← trimStart_append_of_ne_nil hblank] at hfirst
        have hrow := IsRowOfValues.cons (List.append_ne_nil_of_left_ne_nil hne ds) hfirst ih
        cases value with
        | nil => exact hrow
        | cons c value => exact hrow

theorem isRowOfValues_of_isBlank (h : ∀ c ∈ blanks, isBlank c = true) :
    IsRowOfValues blanks [] := by
  obtain ⟨values, hrow, hnil⟩ := modifiersAt_eq_ok_iff.mp (modifiersAt_of_isBlank h 0)
  rwa [List.map_eq_nil_iff.mp hnil.symm] at hrow

/-! ### One more modifier -/

/-- The text of a modifier with its value between braces. -/
def bracedText (name value : List Char) : List Char :=
  name ++ '=' :: '{' :: (value ++ ['}'])

theorem stripBraces_braces (cs : List Char) : stripBraces ('{' :: (cs ++ ['}'])) = cs := by
  have hlast : ('{' :: (cs ++ ['}'])).getLast? = some '}' := by
    rw [← List.cons_append, List.getLast?_concat]
  simp [stripBraces, inner_cons_append, hlast]

section Braced

variable {name : String} (hname : IsName name) {text : List Char}

include hname

/-- Its text tells the modifier. -/
theorem ofValue_bracedText (text : List Char) :
    Modifier.ofValue (bracedText name.toList text) = ⟨name, String.ofList text⟩ := by
  have hequals : '=' ∉ name.toList := fun hmem => (hname.plain '=' hmem).2.2.2 rfl
  rw [Modifier.ofValue, bracedText, splitFirst?_append hequals]
  simp only [stripBraces_braces, String.ofList_toList]

theorem closesBare_bracedText (htext : IsBalanced text) :
    ClosesBare 0 (bracedText name.toList text) := by
  have hplain (c : Char) (hc : c ∈ name.toList) : isBlank c = false ∧ c ≠ '{' ∧ c ≠ '}' :=
    ⟨(hname.plain c hc).1, (hname.plain c hc).2.1, (hname.plain c hc).2.2.1⟩
  refine closesBare_append hplain ?_
  refine closesBare_cons_iff.mpr ⟨fun h => absurd h (by decide), 0, rfl, ?_⟩
  refine closesBare_cons_iff.mpr ⟨fun h => absurd h (by decide), 1, rfl, ?_⟩
  exact closesBare_concat (isBalanced_iff.mp htext)

/-- The text of the modifier is one value behind a blank. -/
theorem isRowOfValues_bracedText (htext : IsBalanced text) :
    IsRowOfValues (' ' :: bracedText name.toList text) [bracedText name.toList text] := by
  have hne : name.toList ≠ [] := fun hnil => hname.ne_empty (String.toList_eq_nil_iff.mp hnil)
  obtain ⟨c, cs, hcs⟩ := List.exists_cons_of_ne_nil hne
  have hplain := hname.plain c (hcs ▸ List.mem_cons_self)
  have hcloses := closesBare_bracedText hname htext
  have hcons : bracedText name.toList text = c :: (cs ++ '=' :: '{' :: (text ++ ['}'])) := by
    rw [bracedText, hcs, List.cons_append]
  have htrim : trimStart (' ' :: bracedText name.toList text) = bracedText name.toList text := by
    rw [hcons, trimStart, List.dropWhile_cons_of_pos rfl,
      List.dropWhile_cons_of_neg (by simp [hplain.1])]
  have hfirst : IsFirstValue (trimStart (' ' :: bracedText name.toList text))
      (bracedText name.toList text) [] := by
    rw [htrim, hcons, isFirstValue_cons_iff hplain.2.1 hplain.1]
    exact ⟨by rw [List.append_nil], hcons ▸ hcloses, fun _ hc => by cases hc⟩
  have hrow := IsRowOfValues.cons (List.cons_ne_nil ' ' _) hfirst .nil
  rwa [hcons, List.isEmpty_cons, if_neg Bool.false_ne_true, ← hcons] at hrow

variable {directive : String} {ms : List Modifier}

theorem modifiers_append_braced (htext : IsBalanced text)
    (h : modifiers directive = .ok ms) :
    modifiers (directive ++ String.ofList (' ' :: bracedText name.toList text)) =
      .ok (ms ++ [⟨name, String.ofList text⟩]) := by
  obtain ⟨values, hrow, rfl⟩ := modifiersAt_eq_ok_iff.mp h
  have hboth := hrow.append (isRowOfValues_bracedText hname htext) (by rintro _ ⟨⟩; rfl)
  rw [modifiers, String.toList_append, String.toList_ofList, modifiersAt_eq_ok_iff]
  exact ⟨_, hboth, by rw [List.map_append, List.map_singleton, ofValue_bracedText hname]⟩

/-- **A directive with one more modifier** can be read just if the directive can. -/
theorem exists_modifiers_append_braced_iff (htext : IsBalanced text) :
    (∃ ms, modifiers (directive ++ String.ofList (' ' :: bracedText name.toList text)) = .ok ms) ↔
      ∃ ms, modifiers directive = .ok ms := by
  have hmodifier : IsBalanced (' ' :: bracedText name.toList text) := by
    refine (isBalanced_cons_iff (by decide) (by decide)).mpr (isBalanced_iff.mpr ?_)
    exact (closesBare_bracedText hname htext).depthBehind_eq
  rw [exists_modifiers_iff, exists_modifiers_iff, String.toList_append, String.toList_ofList]
  exact ⟨fun h => h.right_iff_left.mp hmodifier, fun h => h.append hmodifier⟩

end Braced

/-! ### Blanks at the ends of a text -/

theorem valueAndModifiers_eq_ok_iff {s label : String} {ms : List Modifier} :
    valueAndModifiers s = .ok (label, ms) ↔ ∃ value rest values,
      IsFirstValue (trimStart s.toList) value rest ∧ IsRowOfValues rest values ∧
        label = String.ofList value ∧ ms = values.map Modifier.ofValue := by
  simp only [valueAndModifiers, Except.bind_eq_ok_iff, cut, Prod.exists, cutAt_eq_ok_iff,
    modifiersAt_eq_ok_iff]
  constructor
  · rintro ⟨value, rest, hfirst, _, ⟨values, hrow, rfl⟩, heq⟩
    cases heq
    exact ⟨value, rest, values, hfirst, hrow, rfl, rfl⟩
  · rintro ⟨value, rest, values, hfirst, hrow, rfl, rfl⟩
    exact ⟨value, rest, hfirst, _, ⟨values, hrow, rfl⟩, rfl⟩

theorem isBalanced_append_blanks_iff (hblanks : ∀ c ∈ blanks, isBlank c = true) :
    IsBalanced (cs ++ blanks) ↔ IsBalanced cs :=
  ⟨fun h => h.right_iff_left.mp (isBalanced_of_isBlank hblanks),
    fun h => h.append (isBalanced_of_isBlank hblanks)⟩

theorem isBalanced_blanks_append_iff (hblanks : ∀ c ∈ blanks, isBlank c = true) :
    IsBalanced (blanks ++ cs) ↔ IsBalanced cs :=
  ⟨fun h => h.right_iff_left.mpr (isBalanced_of_isBlank hblanks),
    fun h => (isBalanced_of_isBlank hblanks).append h⟩

theorem isBalanced_trim_iff : IsBalanced (trim cs) ↔ IsBalanced cs := by
  obtain ⟨front, behind, hfront, hbehind, hcs⟩ := exists_eq_append_trim cs
  conv_rhs => rw [hcs, isBalanced_blanks_append_iff hfront, isBalanced_append_blanks_iff hbehind]

/-- **The blanks at the ends of a text do not count.** -/
theorem valueAndModifiers_trimmed {s : String} (h : IsBalanced s.toList) :
    valueAndModifiers (trimmed s) = valueAndModifiers s := by
  have htrimmed : IsBalanced (trimmed s).toList := by
    rwa [trimmed, String.toList_ofList, isBalanced_trim_iff]
  obtain ⟨⟨label, ms⟩, hread⟩ := exists_valueAndModifiers_iff.mpr htrimmed
  rw [hread, eq_comm]
  rw [valueAndModifiers_eq_ok_iff, trimmed, String.toList_ofList,
    trimStart_eq_self (head?_trim _)] at hread
  obtain ⟨value, rest, values, hfirst, hrow, hlabel, hms⟩ := hread
  obtain ⟨blanks, hblanks, heq⟩ := exists_eq_trimEnd_append (trimStart s.toList)
  rw [← trim] at heq
  have hhead : ∀ c ∈ blanks.head?, isBlank c = true := fun c hc =>
    hblanks c (List.mem_of_mem_head? hc)
  rw [valueAndModifiers_eq_ok_iff]
  by_cases hnil : trim s.toList = []
  · have hstart : trimStart s.toList = [] := by
      rw [hnil, List.nil_append] at heq
      cases htext : trimStart s.toList with
      | nil => rfl
      | cons c text =>
        have hblank := hblanks c (heq ▸ htext ▸ List.mem_cons_self)
        cases hblank.symm.trans (isBlank_of_trimStart_eq_cons htext)
    rw [hnil] at hfirst
    exact ⟨value, rest, values, hstart ▸ hfirst, hrow, hlabel, hms⟩
  · refine ⟨value, rest ++ blanks, values, heq ▸ hfirst.append hnil hhead, ?_, hlabel, hms⟩
    simpa using hrow.append (isRowOfValues_of_isBlank hblanks) hhead

end AdditiveSchema.Directive
