import AdditiveSchema.Directive.Error
import AdditiveSchema.Text.Basic

/-!
# Values

A directive is a row of values between blanks. A value that begins with an opening brace runs to
the brace that closes it and loses these two braces; any other value runs to the next blank
outside of braces. Braces nest.

`cut` takes the first value off a text. `cut_length` says that it always takes something, so a
loop over the values of a text ends.
-/

namespace AdditiveSchema.Directive

open AdditiveSchema.Text

/-- Reads one value. `opened` holds the offsets of the open braces, innermost first, and `pos` is
the offset of the next character. The answer is the value as it is written and the text behind
it; an error is a reason with the offset of its brace. -/
def scan (braced : Bool) (opened : List Nat) (pos : Nat) :
    List Char → Except (Reason × Nat) (List Char × List Char)
  | [] =>
    match opened.getLast? with
    | none => .ok ([], [])
    | some outermost => .error (.unclosed, outermost)
  | c :: cs =>
    if c = '{' then
      (scan braced (pos :: opened) (pos + c.utf8Size) cs).map fun (value, rest) =>
        (c :: value, rest)
    else if c = '}' then
      match opened with
      | [] => .error (.unmatchedClosing, pos)
      | _ :: outer =>
        if outer.isEmpty && braced then .ok ([c], cs)
        else (scan braced outer (pos + c.utf8Size) cs).map fun (value, rest) => (c :: value, rest)
    else if opened.isEmpty && isBlank c then .ok ([], c :: cs)
    else
      (scan braced opened (pos + c.utf8Size) cs).map fun (value, rest) => (c :: value, rest)

/-- The text without its first and its last character. -/
def inner (cs : List Char) : List Char :=
  cs.tail.dropLast

/-- Takes the first value off a text whose first character stands at `pos`. Blanks in front are
skipped; the text behind the value is left as it is. -/
def cutAt (pos : Nat) (cs : List Char) : Except LexError (List Char × List Char) :=
  let text := trimStart cs
  let start := pos + (byteLength cs - byteLength text)
  let braced := text.head? == some '{'
  match scan braced [] start text with
  | .error (reason, position) => .error ⟨position, reason, String.ofList text⟩
  | .ok (value, rest) => .ok (if braced then inner value else value, rest)

/-- Takes the first value off a text. -/
def cut (cs : List Char) : Except LexError (List Char × List Char) :=
  cutAt 0 cs

/-! ### What is read and what is left -/

theorem scan_append {braced : Bool} {opened : List Nat} {pos : Nat} {cs value rest : List Char}
    (h : scan braced opened pos cs = .ok (value, rest)) : value ++ rest = cs := by
  induction cs generalizing opened pos value rest with
  | nil =>
    unfold scan at h
    split at h
    · cases h
      rfl
    · cases h
  | cons c cs ih =>
    have step : ∀ {opened pos}, (scan braced opened pos cs).map
        (fun (value, rest) => (c :: value, rest)) = .ok (value, rest) →
        value ++ rest = c :: cs := by
      intro opened pos hm
      cases hs : scan braced opened pos cs with
      | error e => simp [hs, Except.map] at hm
      | ok read =>
        simp only [hs, Except.map, Except.ok.injEq, Prod.mk.injEq] at hm
        rw [← hm.1, ← hm.2, List.cons_append, ih hs]
    unfold scan at h
    split at h
    · exact step h
    · split at h
      · split at h
        · cases h
        · split at h
          · cases h
            rfl
          · exact step h
      · split at h
        · cases h
          rfl
        · exact step h

theorem scan_ne_nil {braced : Bool} {pos : Nat} {c : Char} {cs value rest : List Char}
    (hc : isBlank c = false) (h : scan braced [] pos (c :: cs) = .ok (value, rest)) :
    value ≠ [] := by
  have step : ∀ {opened pos}, (scan braced opened pos cs).map
      (fun (value, rest) => (c :: value, rest)) = .ok (value, rest) → value ≠ [] := by
    intro opened pos hm
    cases hs : scan braced opened pos cs with
    | error e => simp [hs, Except.map] at hm
    | ok read =>
      simp only [hs, Except.map, Except.ok.injEq, Prod.mk.injEq] at hm
      simp [← hm.1]
  unfold scan at h
  split at h
  · exact step h
  · split at h
    · cases h
    · split at h
      · simp_all
      · exact step h

theorem head?_trimStart {cs : List Char} {c : Char} (h : (trimStart cs).head? = some c) :
    isBlank c = false := by
  have := List.head?_dropWhile_not isBlank cs
  rw [trimStart] at h
  simpa [h] using this

/-- A text that is not empty gets shorter. -/
theorem cutAt_length {pos : Nat} {cs value rest : List Char} (hne : cs ≠ [])
    (h : cutAt pos cs = .ok (value, rest)) : rest.length < cs.length := by
  unfold cutAt at h
  simp only at h
  split at h
  · cases h
  · rename_i written behind hs
    simp only [Except.ok.injEq, Prod.mk.injEq] at h
    obtain ⟨-, rfl⟩ := h
    have happ := scan_append hs
    have hle := length_trimStart_le cs
    cases ht : trimStart cs with
    | nil =>
      rw [ht] at happ
      have : behind = [] := (List.append_eq_nil_iff.1 happ).2
      cases cs <;> simp_all
    | cons c text =>
      have hblank : isBlank c = false := @head?_trimStart cs c (by simp [ht])
      rw [ht] at hs happ hle
      have hv := scan_ne_nil hblank hs
      have hlen := congrArg List.length happ
      have : 0 < written.length := List.length_pos_iff.2 hv
      simp only [List.length_append, List.length_cons] at hlen hle
      omega

end AdditiveSchema.Directive
