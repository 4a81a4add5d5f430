import AdditiveSchema.Except
import AdditiveSchema.Proofs.List

/-!
# Rows of steps

When a fold of steps that may fail, or a list of them, ends with a result, and when with an error.

## Main results

* `Except.map_foldlM_congr` : two folds whose steps look the same.
* `Except.forall₂_of_mapM_eq_ok` : the results of a list of steps.
-/

namespace Except

variable {ε α β : Type}

/-- A fold that fails does so at one of its steps. -/
theorem exists_of_foldlM_eq_error {f : β → α → Except ε β} {as : List α} {b : β} {e : ε}
    (h : as.foldlM f b = .error e) : ∃ a ∈ as, ∃ b', f b' a = .error e := by
  induction as generalizing b with
  | nil => cases h
  | cons a as ih =>
    rw [List.foldlM_cons] at h
    rcases bind_eq_error_iff.mp h with h | ⟨b', -, h⟩
    · exact ⟨a, List.mem_cons_self, b, h⟩
    · obtain ⟨a', ha', hstep⟩ := ih h
      exact ⟨a', List.mem_cons_of_mem a ha', hstep⟩

/-- Two folds look the same if all of their steps do. -/
theorem map_foldlM_congr {γ : Type} {step step' : β → α → Except ε β} {f : β → γ} {as : List α}
    (hstep : ∀ a ∈ as, ∀ b' b, f b' = f b → (step' b' a).map f = (step b a).map f) {b' b : β}
    (h : f b' = f b) : (as.foldlM step' b').map f = (as.foldlM step b).map f := by
  induction as generalizing b' b with
  | nil => exact congrArg Except.ok h
  | cons a as ih =>
    rw [List.foldlM_cons, List.foldlM_cons]
    refine map_bind_congr (hstep a List.mem_cons_self b' b h) fun c' c hc => ?_
    exact ih (fun d hd => hstep d (List.mem_cons_of_mem a hd)) hc

/-- A list of steps that fails does so at one of them. -/
theorem exists_of_mapM_eq_error {f : α → Except ε β} {as : List α} {e : ε}
    (h : as.mapM f = .error e) : ∃ a ∈ as, f a = .error e := by
  induction as with
  | nil => cases h
  | cons a as ih =>
    rw [List.mapM_cons] at h
    rcases bind_eq_error_iff.mp h with h | ⟨b, -, h⟩
    · exact ⟨a, List.mem_cons_self, h⟩
    · obtain ⟨a', ha', he⟩ := ih (bind_pure_eq_error_iff.mp h)
      exact ⟨a', List.mem_cons_of_mem a ha', he⟩

/-- The results of a list of steps are those of its steps, one by one. -/
theorem forall₂_of_mapM_eq_ok {f : α → Except ε β} {as : List α} {bs : List β}
    (h : as.mapM f = .ok bs) : List.Forall₂ (fun a b => f a = .ok b) as bs := by
  induction as generalizing bs with
  | nil =>
    cases h
    exact .nil
  | cons a as ih =>
    rw [List.mapM_cons] at h
    obtain ⟨b, hb, h⟩ := bind_eq_ok_iff.mp h
    obtain ⟨bs, hbs, h⟩ := bind_eq_ok_iff.mp h
    cases h
    exact .cons hb (ih hbs)

/-- Each result of a list of steps is the one of a step. -/
theorem exists_of_mapM_eq_ok {f : α → Except ε β} {as : List α} {bs : List β}
    (h : as.mapM f = .ok bs) : ∀ b ∈ bs, ∃ a ∈ as, f a = .ok b :=
  fun _ hb => AdditiveSchema.exists_of_forall₂_right (forall₂_of_mapM_eq_ok h) hb

/-- A list of steps has a result if each of them has one. -/
theorem isOk_mapM (f : α → Except ε β) (as : List α) :
    (as.mapM f).isOk = as.all fun a => (f a).isOk := by
  induction as with
  | nil => rfl
  | cons a as ih =>
    rw [List.mapM_cons, List.all_cons, ← ih]
    cases f a with
    | error e => rfl
    | ok b => cases as.mapM f <;> rfl

end Except
