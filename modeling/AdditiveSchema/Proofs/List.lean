import Mathlib.Data.List.Forall2
import Mathlib.Data.List.Nodup
import Mathlib.Data.List.Perm.Basic

/-!
# Lists with distinct keys

Facts about lists whose elements have distinct keys, about lists of the same elements, about rows of
lists, about lists that are related element by element, and about lists that are sorted by a number.

## Main results

* `find?_key_eq_some`, `filter_key_eq_singleton` : an element is found under its key, alone.
* `flatMap_eq_map_iff` : a row of lists with one element each.
* `forall₂_trans` : relating elements of three lists.
* `pairwise_mergeSort_le`, `filter_mergeSort_le` : sorting by a number.
-/

namespace AdditiveSchema

section Keys

variable {α κ : Type} [BEq κ] [LawfulBEq κ] {key : α → κ} {as : List α}

theorem filter_key_eq_singleton (h : (as.map key).Nodup) {a : α} (ha : a ∈ as) :
    as.filter (key · == key a) = [a] := by
  induction as with
  | nil => cases ha
  | cons b as ih =>
    obtain ⟨hb, has⟩ := List.nodup_cons.mp h
    rcases List.mem_cons.mp ha with rfl | ha
    · have hnil : as.filter (key · == key a) = [] := List.filter_eq_nil_iff.mpr fun c hc hkey =>
        hb (eq_of_beq hkey ▸ List.mem_map_of_mem hc)
      rw [List.filter_cons, if_pos (beq_self_eq_true _), hnil]
    · have hne : ¬ (key b == key a) = true := fun hkey =>
        hb (eq_of_beq hkey ▸ List.mem_map_of_mem ha)
      rw [List.filter_cons, if_neg hne, ih has ha]

theorem find?_key_eq_some (h : (as.map key).Nodup) {a : α} (ha : a ∈ as) :
    as.find? (key · == key a) = some a := by
  rw [← List.head?_filter, filter_key_eq_singleton h ha, List.head?_cons]

end Keys

theorem flatMap_filter {α β : Type} (p : α → Bool) (f : α → List β) (as : List α) :
    (as.filter p).flatMap f = as.flatMap fun a => if p a then f a else [] := by
  induction as with
  | nil => rfl
  | cons a as ih =>
    rw [List.filter_cons, List.flatMap_cons, ← ih]
    cases p a <;> rfl

theorem length_le_length_flatMap {α β : Type} {f : α → List β} {as : List α}
    (hf : ∀ a ∈ as, f a ≠ []) : as.length ≤ (as.flatMap f).length := by
  induction as with
  | nil => exact Nat.le_refl 0
  | cons a as ih =>
    rw [List.forall_mem_cons] at hf
    have hpos := List.length_pos_iff.mpr hf.1
    have hle := ih hf.2
    rw [List.flatMap_cons, List.length_append, List.length_cons]
    omega

/-- Where no list is empty, the lists in a row are a row of elements just if each of them has its
element alone. -/
theorem flatMap_eq_map_iff {α β : Type} {f : α → List β} {g : α → β} {as : List α}
    (hf : ∀ a ∈ as, f a ≠ []) : as.flatMap f = as.map g ↔ ∀ a ∈ as, f a = [g a] := by
  induction as with
  | nil => exact iff_of_true rfl nofun
  | cons a as ih =>
    rw [List.forall_mem_cons] at hf ⊢
    rw [List.flatMap_cons, List.map_cons, ← ih hf.2]
    constructor
    · intro h
      obtain ⟨b, bs, hfa⟩ := List.exists_cons_of_ne_nil hf.1
      rw [hfa, List.cons_append, List.cons.injEq] at h
      obtain ⟨rfl, hrest⟩ := h
      -- more elements in the first list would leave too many for the others
      have hlength := congrArg List.length hrest
      have hle := length_le_length_flatMap hf.2
      rw [List.length_append, List.length_map] at hlength
      obtain rfl : bs = [] := List.length_eq_zero_iff.mp (by omega)
      exact ⟨hfa, hrest⟩
    · rintro ⟨hfa, hrest⟩
      rw [hfa, hrest, List.singleton_append]

theorem forall_prefix_cons_iff {α : Type} {motive : List α → Prop} {a : α} {as : List α} :
    (∀ front, front <+: a :: as → motive front) ↔
      motive [] ∧ ∀ front, front <+: as → motive (a :: front) := by
  constructor
  · intro h
    exact ⟨h [] List.nil_prefix, fun front hfront => h _ (List.cons_prefix_cons.mpr ⟨rfl, hfront⟩)⟩
  · rintro ⟨hnil, hcons⟩ front hfront
    rcases List.prefix_cons_iff.mp hfront with rfl | ⟨behind, rfl, hbehind⟩
    · exact hnil
    · exact hcons behind hbehind

theorem any_congr_of_mem_iff {α : Type} {as bs : List α} (h : ∀ a, a ∈ as ↔ a ∈ bs) (p : α → Bool) :
    as.any p = bs.any p := by
  rw [Bool.eq_iff_iff, List.any_eq_true, List.any_eq_true]
  simp only [h]

theorem forall₂_trans {α β γ : Type} {R : α → β → Prop} {S : β → γ → Prop} {T : α → γ → Prop}
    (hR : ∀ a b c, R a b → S b c → T a c) {as : List α} {bs : List β} {cs : List γ}
    (h : List.Forall₂ R as bs) (h' : List.Forall₂ S bs cs) : List.Forall₂ T as cs := by
  induction h generalizing cs with
  | nil =>
    cases h'
    exact List.Forall₂.nil
  | cons hab _ ih =>
    cases h' with
    | cons hbc hrest => exact List.Forall₂.cons (hR _ _ _ hab hbc) (ih hrest)

theorem exists_of_forall₂_left {α β : Type} {R : α → β → Prop} {as : List α} {bs : List β}
    (h : List.Forall₂ R as bs) {a : α} (ha : a ∈ as) : ∃ b ∈ bs, R a b := by
  induction h with
  | nil => cases ha
  | @cons a' b' _ _ hab _ ih =>
    rcases List.mem_cons.mp ha with rfl | ha
    · exact ⟨b', List.mem_cons_self, hab⟩
    · obtain ⟨b, hb, hr⟩ := ih ha
      exact ⟨b, List.mem_cons_of_mem b' hb, hr⟩

theorem exists_of_forall₂_right {α β : Type} {R : α → β → Prop} {as : List α} {bs : List β}
    (h : List.Forall₂ R as bs) {b : β} (hb : b ∈ bs) : ∃ a ∈ as, R a b :=
  exists_of_forall₂_left (R := fun b a => R a b) h.flip hb

theorem forall₂_filterMap {α β : Type} {R : α → β → Prop} {f : α → Option β} {as : List α}
    (h : ∀ a ∈ as, ∃ b, f a = some b ∧ R a b) : List.Forall₂ R as (as.filterMap f) := by
  induction as with
  | nil => exact .nil
  | cons a as ih =>
    obtain ⟨b, hb, hab⟩ := h a List.mem_cons_self
    rw [List.filterMap_cons_some hb]
    exact .cons hab (ih fun c hc => h c (List.mem_cons_of_mem a hc))

theorem forall₂_flatMap {α β γ : Type} {R : β → γ → Prop} {f : α → List β} {g : α → List γ}
    {as : List α} (h : ∀ a ∈ as, List.Forall₂ R (f a) (g a)) :
    List.Forall₂ R (as.flatMap f) (as.flatMap g) := by
  induction as with
  | nil => exact .nil
  | cons a as ih =>
    rw [List.flatMap_cons, List.flatMap_cons]
    exact List.rel_append (h a List.mem_cons_self) (ih fun c hc => h c (List.mem_cons_of_mem a hc))

section Sorting

variable {α : Type} (key : α → Nat)

theorem le_key_trans (a b c : α) (hab : decide (key a ≤ key b) = true)
    (hbc : decide (key b ≤ key c) = true) : decide (key a ≤ key c) = true :=
  decide_eq_true (Nat.le_trans (of_decide_eq_true hab) (of_decide_eq_true hbc))

theorem le_key_total (a b : α) :
    (decide (key a ≤ key b) || decide (key b ≤ key a)) = true := by
  simpa using Nat.le_total (key a) (key b)

theorem pairwise_mergeSort_le (as : List α) :
    (as.mergeSort fun a b => decide (key a ≤ key b)).Pairwise fun a b => key a ≤ key b :=
  (List.pairwise_mergeSort (le_key_trans key) (le_key_total key) as).imp of_decide_eq_true

/-- Elements of one key keep their order. -/
theorem filter_mergeSort_le {p : α → Bool} (hp : ∀ a b, p a = true → p b = true → key a = key b)
    (as : List α) :
    (as.mergeSort fun a b => decide (key a ≤ key b)).filter p = as.filter p := by
  have hsorted : (as.filter p).Pairwise fun a b => decide (key a ≤ key b) = true :=
    List.pairwise_filter.mpr (List.pairwise_of_forall fun a b ha hb =>
      decide_eq_true (Nat.le_of_eq (hp a b ha hb)))
  have hsub := (List.sublist_mergeSort (le_key_trans key) (le_key_total key) hsorted
    List.filter_sublist).filter p
  rw [List.filter_filter] at hsub
  simp only [Bool.and_self] at hsub
  exact (hsub.eq_of_length ((List.mergeSort_perm as _).filter p).length_eq.symm).symm

end Sorting

/-- A rearrangement of images is the image of a rearrangement. -/
theorem exists_perm_of_perm_map {α β : Type} {f : α → β} {bs : List β} {as : List α}
    (h : bs.Perm (as.map f)) : ∃ as' : List α, as'.Perm as ∧ bs = as'.map f := by
  obtain ⟨as', rfl, hperm⟩ := (congrFun₂ (List.eq_map_comp_perm f) bs as).mpr h
  exact ⟨as', hperm, rfl⟩

end AdditiveSchema
