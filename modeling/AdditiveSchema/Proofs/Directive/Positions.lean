import AdditiveSchema.Proofs.Directive.Grammar
import AdditiveSchema.Proofs.Text.Blanks
import Mathlib.Data.String.Basic

/-!
# Where a brace is wrong

A directive is only rejected for a brace, and the error points at it. A closing brace is wrong if
nothing is open in front of it, and an opening brace is wrong if it is never closed; of the braces
in a text, the first wrong one is told. Its offset is counted in bytes from the start of the whole
text, however many values stand in front of the one that failed, and whatever blanks are between
them.

## Main definitions

* `Reason.brace` : the brace that is wrong.
* `LexError.PointsInto` : an error points at the first wrong brace of a text.

## Main results

* `scan_eq_error` : what is wrong where the scan fails.
* `pointsInto_of_cutAt`, `pointsInto_of_modifiersAt` : the same of one value and of a row of them.
* `error_pointsAtBrace` : the offset is that of the first wrong brace, and the fragment is the text
  from the start of the value that holds it.
-/

namespace AdditiveSchema.Directive

open AdditiveSchema.Text

/-- The brace that is wrong. -/
def Reason.brace : Reason → Char
  | .unmatchedClosing => '}'
  | .unclosed => '{'

/-! ### The scan -/

/-- The outermost open brace behind a character is the one in front of it, or the character itself
if nothing was open. -/
theorem eq_append_of_stepOpened {opened within : List Nat} {pos outermost : Nat} {c : Char}
    (h : stepOpened opened pos c = within ++ [outermost]) :
    (opened = [] ∧ c = '{' ∧ outermost = pos ∧ within = []) ∨
    ∃ within', opened = within' ++ [outermost] ∧
      stepDepth within'.length c = some within.length := by
  rcases brace_cases c with rfl | rfl | ⟨hopen, hclose⟩
  · cases within with
    | nil =>
      cases h
      exact .inl ⟨rfl, rfl, rfl, rfl⟩
    | cons innermost within =>
      cases h
      exact .inr ⟨within, rfl, rfl⟩
  · cases opened with
    | nil => simp at h
    | cons innermost opened =>
      cases h
      exact .inr ⟨innermost :: within, rfl, rfl⟩
  · rw [stepOpened_of_ne hopen hclose] at h
    exact .inr ⟨within, h, stepDepth_of_ne hopen hclose _⟩

/-- **What is wrong where the scan fails.** Either one of the braces that were open in front of the
text is never closed, and it is the outermost one of them; or the brace stands in the text, where
everything in front of it is closed, and if it is an opening one, nothing behind it closes it. -/
theorem scan_eq_error {braced : Bool} {opened : List Nat} {pos : Nat} {cs : List Char}
    {reason : Reason} {position : Nat}
    (h : scan braced opened pos cs = .error (reason, position)) :
    (reason = .unclosed ∧ ∃ within, opened = within ++ [position] ∧
      depthBehind within.length cs ≠ none) ∨
    ∃ front behind, cs = front ++ reason.brace :: behind ∧ position = pos + byteLength front ∧
      depthBehind opened.length front = some 0 ∧
      (reason = .unclosed → depthBehind 0 behind ≠ none) := by
  -- The stack changes with each character, so this is said of any braces open in front of the text.
  induction cs generalizing opened pos with
  | nil =>
    unfold scan at h
    split at h
    · cases h
    · rename_i outermost hlast
      cases h
      obtain ⟨within, rfl⟩ := List.getLast?_eq_some_iff.mp hlast
      exact .inl ⟨rfl, within, rfl, nofun⟩
  | cons c cs ih =>
    cases hstep : stepDepth opened.length c with
    | none =>
      rw [scan_cons_of_unmatched braced pos cs hstep] at h
      cases h
      obtain ⟨hnil, rfl⟩ := stepDepth_eq_none_iff.mp hstep
      exact .inr ⟨[], cs, rfl, rfl, congrArg some hnil, nofun⟩
    | some depth =>
      have hblank : opened = [] → isBlank c = false := by
        rintro rfl
        by_contra hblank
        rw [scan_cons_of_isBlank (by simpa using hblank)] at h
        cases h
      have hcloses : braced = true → c = '}' → opened.length ≠ 1 := by
        rintro rfl rfl hone
        obtain ⟨outermost, rfl⟩ := List.length_eq_one_iff.mp hone
        rw [scan_cons_of_closes] at h
        cases h
      rw [scan_cons braced pos cs (by simp [hstep]) hblank hcloses, Except.map_eq_error_iff] at h
      rcases ih h with ⟨rfl, within, hopened, hdepth⟩ | ⟨front, behind, rfl, rfl, hdepth, hopen⟩
      · rcases eq_append_of_stepOpened hopened with ⟨rfl, rfl, rfl, rfl⟩ | ⟨outer, rfl, houter⟩
        · exact .inr ⟨[], cs, rfl, rfl, rfl, fun _ => hdepth⟩
        · refine .inl ⟨rfl, outer, rfl, ?_⟩
          rwa [depthBehind_cons, houter, Option.bind_some]
      · refine .inr ⟨c :: front, behind, rfl, ?_, ?_, hopen⟩
        · rw [byteLength_cons, Nat.add_assoc]
        · rw [depthBehind_cons, hstep, Option.bind_some, ← length_stepOpened pos hstep, hdepth]

/-! ### Values and rows of values -/

/-- The error points at the first wrong brace of a text whose first character stands at `pos`. The
text begins with what was read before the value that failed. This value goes on from `front`, whose
braces match, to the wrong brace, and `behind` does not close it. -/
structure LexError.PointsInto (e : LexError) (pos : Nat) (cs read front behind : List Char) :
    Prop where
  text_eq : cs = read ++ (front ++ e.reason.brace :: behind)
  fragment_eq : e.fragment = String.ofList (front ++ e.reason.brace :: behind)
  position_eq : e.position = pos + byteLength (read ++ front)
  head : ∀ c ∈ (front ++ e.reason.brace :: behind).head?, isBlank c = false
  read : IsBalanced read
  front : IsBalanced front
  unclosed : e.reason = .unclosed → ∀ more, more <+: behind → more.count '}' ≤ more.count '{'

variable {pos : Nat} {cs value rest : List Char} {e : LexError}

/-- What stands in front of the text was read before, if its braces match. -/
theorem LexError.PointsInto.append {taken read front behind : List Char}
    (h : e.PointsInto (pos + byteLength taken) cs read front behind) (htaken : IsBalanced taken) :
    e.PointsInto pos (taken ++ cs) (taken ++ read) front behind where
  text_eq := by rw [h.text_eq, List.append_assoc]
  fragment_eq := h.fragment_eq
  position_eq := by simp only [h.position_eq, byteLength_append, Nat.add_assoc]
  head := h.head
  read := htaken.append h.read
  front := h.front
  unclosed := h.unclosed

theorem byteLength_sub_of_eq_append {taken : List Char} (h : cs = taken ++ rest) :
    byteLength cs - byteLength rest = byteLength taken := by
  rw [h, byteLength_append, Nat.add_sub_cancel]

/-- **What is wrong where no value can be cut off.** -/
theorem pointsInto_of_cutAt (h : cutAt pos cs = .error e) :
    ∃ read front behind, e.PointsInto pos cs read front behind := by
  obtain ⟨blanks, hblanks, hcs⟩ := exists_eq_append_trimStart cs
  have hhead : ∀ c ∈ (trimStart cs).head?, isBlank c = false := fun c hc => head?_trimStart hc
  unfold cutAt at h
  simp only [byteLength_sub_of_eq_append hcs] at h
  split at h
  · rename_i reason position hscan
    cases h
    rcases scan_eq_error hscan with
      ⟨-, within, hnil, -⟩ | ⟨front, behind, htext, rfl, hdepth, hopen⟩
    · simp at hnil
    · rw [htext] at hcs hhead
      refine ⟨blanks, front, behind, hcs, by rw [htext], ?_, hhead, isBalanced_of_isBlank hblanks,
        isBalanced_iff.mpr hdepth, fun hreason => ?_⟩
      · rw [byteLength_append, Nat.add_assoc]
      · obtain ⟨depth, hbehind⟩ := Option.ne_none_iff_exists'.mp (hopen hreason)
        simpa using (depthBehind_eq_some_iff.mp hbehind).2
  · cases h

/-- What is taken off a text with its first value has matching braces. -/
theorem exists_eq_append_of_cutAt (h : cutAt pos cs = .ok (value, rest)) :
    ∃ taken, cs = taken ++ rest ∧ IsBalanced taken := by
  obtain ⟨blanks, hblanks, hcs⟩ := exists_eq_append_trimStart cs
  have hblanks := isBalanced_of_isBlank hblanks
  have hvalue := cutAt_eq_ok_iff.mp h
  generalize trimStart cs = text at hcs hvalue
  cases hvalue with
  | nothing => exact ⟨blanks, hcs, hblanks⟩
  | braced hvalue =>
    exact ⟨blanks ++ '{' :: (value ++ ['}']), by simp [hcs], hblanks.append hvalue.braces⟩
  | bare _ _ hvalue => exact ⟨blanks ++ value, by simp [hcs], hblanks.append hvalue⟩

/-- **What is wrong in a row of values.** -/
theorem pointsInto_of_modifiersAt (h : modifiersAt pos cs = .error e) :
    ∃ read front behind, e.PointsInto pos cs read front behind := by
  fun_induction modifiersAt pos cs with
  | case1 => cases h
  | case2 pos cs hne e' hcut =>
    cases h
    exact pointsInto_of_cutAt hcut
  | case3 pos cs hne value rest hcut hlength ih =>
    obtain ⟨taken, hcs, htaken⟩ := exists_eq_append_of_cutAt hcut
    rw [byteLength_sub_of_eq_append hcs] at ih h
    obtain ⟨read, front, behind, hpoints⟩ := ih (Except.map_eq_error_iff.mp h)
    exact ⟨taken ++ read, front, behind, hcs ▸ hpoints.append htaken⟩

/-- **What is wrong in a value with modifiers behind it.** -/
theorem pointsInto_of_valueAndModifiers {s : String} (h : valueAndModifiers s = .error e) :
    ∃ read front behind, e.PointsInto 0 s.toList read front behind := by
  rcases Except.bind_eq_error_iff.mp h with h | ⟨⟨value, rest⟩, hcut, h⟩
  · exact pointsInto_of_cutAt h
  · obtain ⟨taken, hs, htaken⟩ := exists_eq_append_of_cutAt hcut
    have h := Except.bind_pure_eq_error_iff.mp h
    rw [byteLength_sub_of_eq_append hs] at h
    obtain ⟨read, front, behind, hpoints⟩ := pointsInto_of_modifiersAt h
    rw [← Nat.zero_add (byteLength taken)] at hpoints
    exact ⟨taken ++ read, front, behind, hs ▸ hpoints.append htaken⟩

/-! ### Positions in strings -/

theorem byteLength_eq_utf8Len (cs : List Char) : byteLength cs = String.utf8Len cs := by
  induction cs with
  | nil => rfl
  | cons c cs ih => rw [byteLength_cons, String.utf8Len_cons, ih, Nat.add_comm]

namespace LexError.PointsInto

variable {s : String} {read front behind : List Char}

theorem eq_append (h : e.PointsInto 0 s.toList read front behind) :
    s = String.ofList ((read ++ front) ++ e.reason.brace :: behind) := by
  rw [← String.ofList_toList (s := s), h.text_eq, List.append_assoc]

theorem position_eq_utf8Len (h : e.PointsInto 0 s.toList read front behind) :
    e.position = String.utf8Len (read ++ front) := by
  rw [h.position_eq, Nat.zero_add, byteLength_eq_utf8Len]

/-- The offset stands between two characters, and the brace comes next. -/
theorem get?_position (h : e.PointsInto 0 s.toList read front behind) :
    (⟨e.position⟩ : String.Pos.Raw).get? s = some e.reason.brace := by
  rw [h.eq_append, h.position_eq_utf8Len, String.get?_of_valid, List.head?_cons]

theorem isValid_position (h : e.PointsInto 0 s.toList read front behind) :
    (⟨e.position⟩ : String.Pos.Raw).IsValid s := by
  refine String.Pos.Raw.isValid_iff_exists_append.mpr
    ⟨String.ofList (read ++ front), String.ofList (e.reason.brace :: behind), ?_, ?_⟩
  · rw [← String.ofList_append, ← h.eq_append]
  · rw [h.position_eq_utf8Len, String.rawEndPos_ofList]

end LexError.PointsInto

/-- **Errors point at the first wrong brace.** The offset stands between two characters of the text,
and the brace that the reason tells of comes next. The fragment is an end of the text that starts
in front of the brace and with no blank. The braces from its start to the offset match, so that a
closing brace is the first one that closes nothing, and an opening brace that nothing behind it
closes is the outermost one. The braces in front of the fragment match as well. -/
theorem error_pointsAtBrace {s : String} {e : LexError}
    (h : cut s.toList = .error e ∨ modifiers s = .error e ∨ valueAndModifiers s = .error e) :
    (⟨e.position⟩ : String.Pos.Raw).IsValid s ∧
    (⟨e.position⟩ : String.Pos.Raw).get? s = some e.reason.brace ∧
    ∃ read front behind : String, s = read ++ e.fragment ∧
      e.fragment = front ++ (String.singleton e.reason.brace ++ behind) ∧
      e.position = (read ++ front).utf8ByteSize ∧
      (∃ c, e.fragment.toList.head? = some c ∧ isBlank c = false) ∧
      IsBalanced read.toList ∧ IsBalanced front.toList ∧
      (e.reason = .unclosed →
        ∀ more, more <+: behind.toList → more.count '}' ≤ more.count '{') := by
  have hpoints : ∃ read front behind, e.PointsInto 0 s.toList read front behind := by
    rcases h with h | h | h
    · exact pointsInto_of_cutAt h
    · exact pointsInto_of_modifiersAt h
    · exact pointsInto_of_valueAndModifiers h
  obtain ⟨read, front, behind, hpoints⟩ := hpoints
  refine ⟨hpoints.isValid_position, hpoints.get?_position, String.ofList read, String.ofList front,
    String.ofList behind, ?_, ?_, ?_, ?_, ?_, ?_, ?_⟩
  · rw [hpoints.fragment_eq, ← String.ofList_append, ← List.append_assoc, ← hpoints.eq_append]
  · rw [hpoints.fragment_eq, String.ofList_append, String.ofList_cons]
  · rw [← String.ofList_append, String.utf8ByteSize_ofList, hpoints.position_eq_utf8Len]
  · rw [hpoints.fragment_eq, String.toList_ofList]
    have hhead := hpoints.head
    cases front with
    | nil => exact ⟨_, rfl, hhead _ rfl⟩
    | cons c front => exact ⟨c, rfl, hhead c rfl⟩
  · rw [String.toList_ofList]
    exact hpoints.read
  · rw [String.toList_ofList]
    exact hpoints.front
  · rw [String.toList_ofList]
    exact hpoints.unclosed

/-- An index without its last brace, behind two modifiers and wide blanks. -/
def unclosedIndex : String :=
  "unique\u3000name=\x7bfilm\u00A0id\x7d index=\x7bcols={title}"

/-- The error points at the brace of the index, behind 28 characters of 31 bytes, also if the text
is read as a value with modifiers. A closing brace behind a wide blank stands at byte 3. -/
theorem error_pointsAtBrace_unclosedIndex :
    (∃ e, modifiers unclosedIndex = .error e ∧ e.position = 31 ∧
      e.fragment = "index=\x7bcols={title}" ∧
      (⟨31⟩ : String.Pos.Raw).get? unclosedIndex = some '{') ∧
    (∃ e, valueAndModifiers unclosedIndex = .error e ∧ e.position = 31 ∧
      (⟨31⟩ : String.Pos.Raw).IsValid unclosedIndex) ∧
    ∃ e, cut "\u3000\x7d".toList = .error e ∧ e.position = 3 ∧
      (⟨3⟩ : String.Pos.Raw).get? "\u3000\x7d" = some '}' := by
  have hmodifiers : modifiers unclosedIndex =
      .error ⟨31, .unclosed, "index=\x7bcols={title}"⟩ := by decide +kernel
  have hvalue : valueAndModifiers unclosedIndex =
      .error ⟨31, .unclosed, "index=\x7bcols={title}"⟩ := by decide +kernel
  have hcut : cut "\u3000\x7d".toList = .error ⟨3, .unmatchedClosing, "\x7d"⟩ := by decide +kernel
  exact ⟨⟨_, hmodifiers, rfl, rfl, (error_pointsAtBrace (.inr (.inl hmodifiers))).2.1⟩,
    ⟨_, hvalue, rfl, (error_pointsAtBrace (.inr (.inr hvalue))).1⟩,
    _, hcut, rfl, (error_pointsAtBrace (.inl hcut)).2.1⟩

end AdditiveSchema.Directive
