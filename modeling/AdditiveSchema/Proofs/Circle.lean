import Mathlib.Data.Fintype.EquivFin
import Mathlib.Data.Set.Finite.Basic
import Mathlib.Logic.Function.Iterate
import Mathlib.Logic.Relation

/-!
# Circles of a relation

A circle is a row of at least two different elements each of which is related to the next one, and
the last to the first. Where every element of a list is related to another one of the list, going
from one element to the next must run into a circle, since the list is finite. An element that leads
back to itself is on a circle, and one from which such an element can be reached leads round.

## Main definitions

* `IsCircle` : a row of elements is a circle.
* `IsStuck` : each element of a list is related to another one of it.
* `LeadsRound` : an element leads to one that leads back to itself.

## Main results

* `exists_isCircle_iff` : elements that are stuck contain a circle, and circles are stuck.
* `exists_isStuck_map_iff` : being stuck is kept by renaming.
* `leadsRound_of_exists_next`, `leadsRound_iff_exists_next` : going on and on leads round.
-/

namespace AdditiveSchema

variable {α : Type} {R : α → α → Prop}

/-- At least two different elements in a row, each related to the next, the last to the first. -/
structure IsCircle (R : α → α → Prop) (circle : List α) : Prop where
  two_le_length : 2 ≤ circle.length
  nodup : circle.Nodup
  next : ∀ i a b, circle[i]? = some a → circle[(i + 1) % circle.length]? = some b → R a b

/-- There are elements, and each of them is related to another one of them. -/
structure IsStuck (R : α → α → Prop) (stuck : List α) : Prop where
  ne_nil : stuck ≠ []
  exists_next : ∀ a ∈ stuck, ∃ b ∈ stuck, R a b ∧ b ≠ a

/-- Two elements that are related both ways form a circle. -/
theorem isCircle_pair {a b : α} (hne : a ≠ b) (hab : R a b) (hba : R b a) : IsCircle R [a, b] where
  two_le_length := Nat.le_refl 2
  nodup := by simpa using hne
  next i x y hx hy := by
    match i with
    | 0 =>
      obtain rfl : a = x := by simpa using hx
      obtain rfl : b = y := by simpa using hy
      exact hab
    | 1 =>
      obtain rfl : b = x := by simpa using hx
      obtain rfl : a = y := by simpa using hy
      exact hba
    | i + 2 => cases hx

/-- Each element of a circle is related to another one. -/
theorem IsCircle.isStuck {circle : List α} (h : IsCircle R circle) : IsStuck R circle := by
  have hlength := h.two_le_length
  refine ⟨List.ne_nil_of_length_pos (by omega), fun a ha => ?_⟩
  obtain ⟨i, hi, rfl⟩ := List.mem_iff_getElem.mp ha
  have hj : (i + 1) % circle.length < circle.length := Nat.mod_lt _ (by omega)
  have hij : (i + 1) % circle.length ≠ i := by
    rcases Nat.lt_or_ge (i + 1) circle.length with hlt | hge
    · rw [Nat.mod_eq_of_lt hlt]
      omega
    · rw [show i + 1 = circle.length by omega, Nat.mod_self]
      omega
  refine ⟨circle[(i + 1) % circle.length], List.getElem_mem hj, h.next i _ _
    (List.getElem?_eq_getElem hi) (List.getElem?_eq_getElem hj), fun heq => hij ?_⟩
  exact (h.nodup.getElem_inj_iff).mp heq

/-- A walk that comes back to its start passes different elements until it first does so. -/
theorem exists_period {f : α → α} {x : α} {n : Nat} (hn : 0 < n) (h : f^[n] x = x) :
    ∃ p, 0 < p ∧ f^[p] x = x ∧ ∀ i < p, ∀ j < p, f^[i] x = f^[j] x → i = j := by
  classical
  have hex : ∃ p, 0 < p ∧ f^[p] x = x := ⟨n, hn, h⟩
  obtain ⟨hpos, hperiod⟩ := Nat.find_spec hex
  refine ⟨Nat.find hex, hpos, hperiod, fun i hi j hj heq => ?_⟩
  by_contra hne
  wlog hlt : i < j generalizing i j
  · exact this j hj i hi heq.symm (Ne.symm hne) (by omega)
  -- going on from the two equal places, the walk would come back too early
  have hback : f^[Nat.find hex - j + i] x = x := by
    rw [Function.iterate_add_apply, heq, ← Function.iterate_add_apply, Nat.sub_add_cancel hj.le,
      hperiod]
  exact Nat.find_min hex (m := Nat.find hex - j + i) (by omega) ⟨by omega, hback⟩

/-- **Elements that are stuck contain a circle.** -/
theorem IsStuck.exists_isCircle {stuck : List α} (h : IsStuck R stuck) :
    ∃ circle ⊆ stuck, IsCircle R circle := by
  have : Finite {a // a ∈ stuck} := stuck.finite_toSet.to_subtype
  have hstep (a : {a // a ∈ stuck}) : ∃ b : {a // a ∈ stuck}, R a b ∧ b ≠ a := by
    obtain ⟨b, hb, hab, hne⟩ := h.exists_next a a.2
    exact ⟨⟨b, hb⟩, hab, fun heq => hne (congrArg Subtype.val heq)⟩
  choose f hf hfne using hstep
  -- a walk through finitely many elements comes back to one of them
  obtain ⟨x, n, hn, hx⟩ : ∃ x n, 0 < n ∧ f^[n] x = x := by
    obtain ⟨a, ha⟩ := List.exists_mem_of_ne_nil stuck h.ne_nil
    obtain ⟨m, n, heq, hmn⟩ := Function.not_injective_iff.mp
      (not_injective_infinite_finite fun n => f^[n] ⟨a, ha⟩)
    wlog hlt : m < n generalizing m n
    · exact this n m heq.symm hmn.symm (by omega)
    refine ⟨f^[m] ⟨a, ha⟩, n - m, by omega, ?_⟩
    rw [← Function.iterate_add_apply, Nat.sub_add_cancel hlt.le]
    exact heq.symm
  obtain ⟨p, hpos, hperiod, hinj⟩ := exists_period hn hx
  have hone : p ≠ 1 := by
    rintro rfl
    exact hfne x hperiod
  refine ⟨(List.range p).map fun n => (f^[n] x).1, ?_, ?_, ?_, ?_⟩
  · intro b hb
    obtain ⟨n, -, rfl⟩ := List.mem_map.mp hb
    exact (f^[n] x).2
  · rw [List.length_map, List.length_range]
    omega
  · refine List.Nodup.map_on (fun i hi j hj heq => ?_) List.nodup_range
    exact hinj i (List.mem_range.mp hi) j (List.mem_range.mp hj) (Subtype.ext heq)
  · intro i a b ha hb
    obtain ⟨hi, rfl⟩ := List.getElem?_eq_some_iff.mp ha
    obtain ⟨-, rfl⟩ := List.getElem?_eq_some_iff.mp hb
    simp only [List.length_map, List.length_range] at hi
    simp only [List.getElem_map, List.getElem_range, List.length_map, List.length_range]
    have hnext : f^[(i + 1) % p] x = f (f^[i] x) := by
      rw [← Function.iterate_succ_apply' f i x]
      rcases Nat.lt_or_ge (i + 1) p with hlt | hge
      · rw [Nat.mod_eq_of_lt hlt]
      · have hlast : i + 1 = p := by omega
        rw [Nat.succ_eq_add_one, hlast, Nat.mod_self, hperiod]
        rfl
    rw [hnext]
    exact hf _

/-- Among the elements of a list there is a circle just if some of them are stuck. -/
theorem exists_isCircle_iff {as : List α} :
    (∃ circle ⊆ as, IsCircle R circle) ↔ ∃ stuck ⊆ as, IsStuck R stuck := by
  constructor
  · rintro ⟨circle, hcircle, h⟩
    exact ⟨circle, hcircle, h.isStuck⟩
  · rintro ⟨stuck, hstuck, h⟩
    obtain ⟨circle, hcircle, hc⟩ := h.exists_isCircle
    exact ⟨circle, List.Subset.trans hcircle hstuck, hc⟩

/-- Being stuck is kept by a renaming of the elements that keeps them apart. -/
theorem exists_isStuck_map_iff {β : Type} {S : β → β → Prop} {f : α → β} {as : List α}
    (hf : ∀ a ∈ as, ∀ b ∈ as, f a = f b → a = b) (hS : ∀ a b, S (f a) (f b) ↔ R a b) :
    (∃ stuck ⊆ as.map f, IsStuck S stuck) ↔ ∃ stuck ⊆ as, IsStuck R stuck := by
  classical
  constructor
  · rintro ⟨stuck, hstuck, hne, hnext⟩
    refine ⟨as.filter (f · ∈ stuck), List.filter_subset_self _, ?_, fun a ha => ?_⟩
    · obtain ⟨b, hb⟩ := List.exists_mem_of_ne_nil stuck hne
      obtain ⟨a, ha, rfl⟩ := List.mem_map.mp (hstuck hb)
      exact List.ne_nil_of_mem (List.mem_filter.mpr ⟨ha, decide_eq_true hb⟩)
    · obtain ⟨ha, hfa⟩ := List.mem_filter.mp ha
      obtain ⟨b', hb', hab, hba⟩ := hnext _ (of_decide_eq_true hfa)
      obtain ⟨b, hb, rfl⟩ := List.mem_map.mp (hstuck hb')
      exact ⟨b, List.mem_filter.mpr ⟨hb, decide_eq_true hb'⟩, (hS a b).mp hab,
        fun heq => hba (heq ▸ rfl)⟩
  · rintro ⟨stuck, hstuck, hne, hnext⟩
    refine ⟨stuck.map f, List.map_subset f hstuck, fun hnil => hne (List.map_eq_nil_iff.mp hnil),
      fun a' ha' => ?_⟩
    obtain ⟨a, ha, rfl⟩ := List.mem_map.mp ha'
    obtain ⟨b, hb, hab, hba⟩ := hnext a ha
    exact ⟨f b, List.mem_map_of_mem hb, (hS a b).mpr hab,
      fun heq => hba (hf b (hstuck hb) a (hstuck ha) heq)⟩

/-! ### Leading round -/

/-- The element leads to one that leads back to itself. -/
def LeadsRound (R : α → α → Prop) (a : α) : Prop :=
  ∃ b, Relation.ReflTransGen R a b ∧ Relation.TransGen R b b

/-- Each place of a circle leads to the later ones. -/
theorem IsCircle.reflTransGen {circle : List α} (h : IsCircle R circle) {i j : Nat} (hij : i ≤ j)
    (hj : j < circle.length) : Relation.ReflTransGen R circle[i] circle[j] := by
  induction j, hij using Nat.le_induction with
  | base => exact .refl
  | succ j hij ih =>
    refine (ih (by omega)).tail (h.next j _ _ (List.getElem?_eq_getElem _) ?_)
    rw [Nat.mod_eq_of_lt hj, List.getElem?_eq_getElem]

/-- Each element of a circle leads back to itself. -/
theorem IsCircle.transGen {circle : List α} (h : IsCircle R circle) {a : α} (ha : a ∈ circle) :
    Relation.TransGen R a a := by
  obtain ⟨i, hi, rfl⟩ := List.mem_iff_getElem.mp ha
  obtain ⟨last, hlast⟩ : ∃ last, last + 1 = circle.length := ⟨circle.length - 1, by omega⟩
  have hend : Relation.ReflTransGen R circle[i] circle[last] :=
    h.reflTransGen (by omega) (by omega)
  have hback : R circle[last] circle[0] := by
    refine h.next last _ _ (List.getElem?_eq_getElem _) ?_
    rw [← List.getElem?_eq_getElem]
    exact congrArg (circle[·]?) (by rw [hlast, Nat.mod_self])
  exact (Relation.TransGen.tail' hend hback).trans_left (h.reflTransGen (Nat.zero_le i) hi)

/-- **Going on and on leads round,** if there are only so many elements to go to. -/
theorem leadsRound_of_exists_next {as : List α} (h : ∀ a ∈ as, ∃ b ∈ as, R a b) {a : α}
    (ha : a ∈ as) : LeadsRound R a := by
  classical
  by_cases hself : ∃ b, Relation.ReflTransGen R a b ∧ R b b
  · obtain ⟨b, hab, hbb⟩ := hself
    exact ⟨b, hab, .single hbb⟩
  · -- what can be reached is stuck, so there is a circle in it
    have hstuck : IsStuck R (as.filter (Relation.ReflTransGen R a ·)) := by
      refine ⟨List.ne_nil_of_mem (List.mem_filter.mpr ⟨ha, decide_eq_true .refl⟩), fun b hb => ?_⟩
      obtain ⟨hb, hab⟩ := List.mem_filter.mp hb
      obtain ⟨c, hc, hbc⟩ := h b hb
      have hab := of_decide_eq_true hab
      refine ⟨c, List.mem_filter.mpr ⟨hc, decide_eq_true (hab.tail hbc)⟩, hbc, ?_⟩
      rintro rfl
      exact hself ⟨_, hab, hbc⟩
    obtain ⟨circle, hcircle, h⟩ := hstuck.exists_isCircle
    obtain ⟨b, hb⟩ := List.exists_mem_of_ne_nil circle h.isStuck.ne_nil
    exact ⟨b, of_decide_eq_true (List.mem_filter.mp (hcircle hb)).2, h.transGen hb⟩

theorem LeadsRound.head {a b : α} (hab : R a b) (h : LeadsRound R b) : LeadsRound R a := by
  obtain ⟨c, hbc, hc⟩ := h
  exact ⟨c, hbc.head hab, hc⟩

/-- An element leads round just if one of the next elements does. -/
theorem leadsRound_iff_exists_next {a : α} : LeadsRound R a ↔ ∃ b, R a b ∧ LeadsRound R b := by
  constructor
  · rintro ⟨c, hac, hc⟩
    rcases Relation.ReflTransGen.cases_head hac with rfl | ⟨b, hab, hbc⟩
    · obtain ⟨b, hab, hba⟩ := Relation.TransGen.head'_iff.mp hc
      exact ⟨b, hab, a, hba, hc⟩
    · exact ⟨b, hab, c, hbc, hc⟩
  · rintro ⟨b, hab, h⟩
    exact h.head hab

end AdditiveSchema
