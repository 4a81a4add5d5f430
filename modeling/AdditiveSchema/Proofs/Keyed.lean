import AdditiveSchema.Keyed
import Mathlib.Data.List.Dedup
import Mathlib.Data.List.Induction
import Mathlib.Data.List.Nodup
import Mathlib.Data.List.Sort

/-!
# Lists in the order of a key

A list that is built by insertion is sorted by its keys and holds the last element inserted under
each key. Looking a key up is therefore looking it up from the right end of the insertions, a list
of distinct keys loses nothing, and such a list may be inserted in any order.

## Main definitions

* `Keyed.IsSorted` : the keys of a list ascend, so no key occurs twice.

## Main results

* `Keyed.find?_insert` : what an insertion does to a look-up.
* `Keyed.isSorted_ofList` : lists built by insertion are sorted.
* `Keyed.mem_ofList_iff` : an element stays if it is the last one of its key.
* `Keyed.length_ofList_eq_iff` : when all elements stay.
* `Keyed.ofList_append_perm` : elements of distinct keys may come in any order.
-/

namespace AdditiveSchema.Keyed

variable {α κ : Type} [Ord κ] {key : α → κ}

/-- The keys ascend. -/
def IsSorted (key : α → κ) (as : List α) : Prop :=
  as.Pairwise fun a b => compare (key a) (key b) = .lt

theorem mem_of_mem_insert {a b : α} {as : List α} (h : b ∈ insert key a as) : b = a ∨ b ∈ as := by
  induction as with
  | nil => simpa [insert] using h
  | cons c cs ih =>
    simp only [insert] at h
    split at h
    · simpa using h
    · rcases List.mem_cons.mp h with rfl | hb
      · exact Or.inl rfl
      · exact Or.inr (List.mem_cons_of_mem _ hb)
    · rcases List.mem_cons.mp h with rfl | hb
      · exact Or.inr List.mem_cons_self
      · exact (ih hb).imp_right (List.mem_cons_of_mem _)

theorem ofList_concat (as : List α) (a : α) :
    ofList key (as ++ [a]) = insert key a (ofList key as) := by
  simp only [ofList, List.foldl_append, List.foldl_cons, List.foldl_nil]

theorem mem_of_mem_ofList {a : α} {as : List α} (h : a ∈ ofList key as) : a ∈ as := by
  induction as using List.reverseRecOn with
  | nil => simp [ofList] at h
  | append_singleton as b ih =>
    rw [ofList_concat] at h
    rcases mem_of_mem_insert h with rfl | ha
    · simp
    · exact List.mem_append_left _ (ih ha)

variable [Std.TransOrd κ] [Std.LawfulEqOrd κ]

theorem IsSorted.insert {as : List α} (h : IsSorted key as) (a : α) :
    IsSorted key (insert key a as) := by
  induction as with
  | nil => simp [Keyed.insert, IsSorted]
  | cons b bs ih =>
    obtain ⟨hb, hbs⟩ := List.pairwise_cons.mp h
    simp only [Keyed.insert]
    split
    · rename_i hlt
      refine List.pairwise_cons.mpr ⟨fun c hc => ?_, h⟩
      rcases List.mem_cons.mp hc with rfl | hc
      · exact hlt
      · exact Std.TransCmp.lt_trans hlt (hb c hc)
    · rename_i heq
      refine List.pairwise_cons.mpr ⟨fun c hc => ?_, hbs⟩
      rw [Std.LawfulEqOrd.eq_of_compare heq]
      exact hb c hc
    · rename_i hgt
      refine List.pairwise_cons.mpr ⟨fun c hc => ?_, ih hbs⟩
      rcases mem_of_mem_insert hc with rfl | hc
      · exact Std.OrientedCmp.gt_iff_lt.mp hgt
      · exact hb c hc

theorem isSorted_ofList (as : List α) : IsSorted key (ofList key as) := by
  induction as using List.reverseRecOn with
  | nil => simp [ofList, IsSorted]
  | append_singleton as a ih =>
    rw [ofList_concat]
    exact ih.insert a

omit [Std.TransOrd κ] in
theorem IsSorted.nodup {as : List α} (h : IsSorted key as) : (as.map key).Nodup :=
  List.pairwise_map.mpr (h.imp fun hlt heq => by simp [heq] at hlt)

/-- A sorted list is determined by its elements. -/
theorem IsSorted.eq_of_mem_iff {as bs : List α} (has : IsSorted key as) (hbs : IsSorted key bs)
    (h : ∀ a, a ∈ as ↔ a ∈ bs) : as = bs := by
  have : Std.Irrefl fun a b => compare (key a) (key b) = .lt := ⟨fun a => by simp⟩
  have : Std.Antisymm fun a b => compare (key a) (key b) = .lt :=
    ⟨fun a b hab hba => absurd (Std.TransCmp.lt_trans hab hba) (by simp)⟩
  exact List.Pairwise.eq_of_mem_iff has hbs h

/-- An element that is there already takes its own place. -/
theorem IsSorted.insert_eq_self {as : List α} (h : IsSorted key as) {a : α} (ha : a ∈ as) :
    Keyed.insert key a as = as := by
  induction as with
  | nil => simp at ha
  | cons b bs ih =>
    obtain ⟨hb, hbs⟩ := List.pairwise_cons.mp h
    rcases List.mem_cons.mp ha with rfl | ha
    · simp only [Keyed.insert, Std.ReflOrd.compare_self]
    · simp only [Keyed.insert, Std.OrientedCmp.gt_iff_lt.mpr (hb a ha), ih hbs ha]

variable [BEq κ] [LawfulBEq κ]

omit [Std.TransOrd κ] in
/-- **What an insertion does to a look-up.** Only the key of the new element is touched. -/
theorem find?_insert (k : κ) (a : α) (as : List α) :
    find? key k (insert key a as) = if key a == k then some a else find? key k as := by
  induction as with
  | nil => cases h : key a == k <;> simp [find?, insert, h]
  | cons b bs ih =>
    simp only [insert]
    split
    · cases h : key a == k <;> simp [find?, h]
    · rename_i heq
      have hab : key a = key b := Std.LawfulEqOrd.eq_of_compare heq
      cases h : key b == k <;> simp [find?, hab, h]
    · rename_i hgt
      have hab : key a ≠ key b := fun hab => by simp [hab] at hgt
      simp only [find?, List.find?_cons] at ih ⊢
      cases hb : key b == k with
      | true =>
        have ha : (key a == k) = false := by
          rw [← eq_of_beq hb]
          exact beq_eq_false_iff_ne.mpr hab
        simp [ha]
      | false => exact ih

omit [Std.TransOrd κ] in
/-- Looking a key up finds the last element inserted under it. -/
theorem find?_ofList (k : κ) (as : List α) :
    find? key k (ofList key as) = as.reverse.find? fun a => key a == k := by
  induction as using List.reverseRecOn with
  | nil => rfl
  | append_singleton as a ih =>
    rw [ofList_concat, find?_insert, ih]
    cases h : key a == k <;> simp [h]

/-- A sorted list has one element for each key, so looking the key up finds it. -/
theorem IsSorted.find?_eq_some {as : List α} (h : IsSorted key as) {a : α} (ha : a ∈ as) :
    find? key (key a) as = some a := by
  induction as with
  | nil => simp at ha
  | cons b bs ih =>
    obtain ⟨hb, hbs⟩ := List.pairwise_cons.mp h
    rcases List.mem_cons.mp ha with rfl | ha
    · simp [find?]
    · have hne : key b ≠ key a := fun hba => by simp [hba] at hb; exact absurd (hb a ha) (by simp)
      simp only [find?, List.find?_cons, beq_eq_false_iff_ne.mpr hne]
      exact ih hbs ha

/-- **An element stays if it is the last one of its key.** -/
theorem mem_ofList_iff {a : α} {as : List α} :
    a ∈ ofList key as ↔ as.reverse.find? (fun b => key b == key a) = some a := by
  rw [← find?_ofList]
  exact ⟨(isSorted_ofList as).find?_eq_some, List.mem_of_find?_eq_some⟩

/-- Later elements hide the earlier ones of the same key, and no others. -/
theorem mem_ofList_append_iff {a : α} {as bs : List α} :
    a ∈ ofList key (as ++ bs) ↔
      a ∈ ofList key bs ∨ a ∈ ofList key as ∧ ∀ b ∈ bs, key b ≠ key a := by
  simp only [mem_ofList_iff, List.reverse_append, List.find?_append]
  cases h : bs.reverse.find? fun b => key b == key a with
  | none => simpa using fun _ => h
  | some b =>
    have hb := List.mem_of_find?_eq_some h
    have hk := List.find?_some h
    simp only [List.mem_reverse, beq_iff_eq] at hb hk
    simp only [Option.some_or, Option.some.injEq, iff_self_or, and_imp]
    exact fun _ hne => absurd hk (hne b hb)

/-- Of elements with distinct keys, none is lost. -/
theorem mem_ofList_of_nodup {a : α} {as : List α} (h : (as.map key).Nodup) :
    a ∈ ofList key as ↔ a ∈ as := by
  induction as using List.reverseRecOn with
  | nil => simp [ofList]
  | append_singleton as b ih =>
    rw [List.map_append, List.nodup_append] at h
    obtain ⟨has, -, hb⟩ := h
    have hb' : a ∈ as → key b ≠ key a := fun ha =>
      (hb (key a) (List.mem_map_of_mem ha) (key b) (by simp)).symm
    rw [mem_ofList_append_iff, ih has]
    simp only [ofList, List.foldl_cons, List.foldl_nil, insert, List.mem_singleton, List.mem_append,
      forall_eq]
    constructor
    · rintro (rfl | ⟨ha, -⟩)
      · exact Or.inr rfl
      · exact Or.inl ha
    · rintro (ha | rfl)
      · exact Or.inr ⟨ha, hb' ha⟩
      · exact Or.inl rfl

/-- **Elements of distinct keys may come in any order.** -/
theorem ofList_append_perm {as bs cs : List α} (hperm : bs.Perm cs) (h : (bs.map key).Nodup) :
    ofList key (as ++ bs) = ofList key (as ++ cs) := by
  have hcs : (cs.map key).Nodup := (hperm.map key).nodup_iff.mp h
  refine (isSorted_ofList _).eq_of_mem_iff (isSorted_ofList _) fun a => ?_
  rw [mem_ofList_append_iff, mem_ofList_append_iff, mem_ofList_of_nodup h, mem_ofList_of_nodup hcs]
  simp only [hperm.mem_iff]

omit [Std.TransOrd κ] in
/-- The keys of the list are those of the insertions. -/
theorem any_key_ofList (k : κ) (as : List α) :
    ((ofList key as).any fun a => key a == k) = as.any fun a => key a == k := by
  have h : (ofList key as).find? (fun a => key a == k) = _ := find?_ofList k as
  rw [Bool.eq_iff_iff, ← List.any_reverse (l := as), List.any_eq_true, ← List.find?_isSome, h,
    List.find?_isSome, List.any_eq_true]

omit [Ord κ] [Std.TransOrd κ] [Std.LawfulEqOrd κ] in
theorem any_key_iff {k : κ} {as : List α} :
    (as.any fun a => key a == k) = true ↔ k ∈ as.map key := by
  rw [List.any_eq_true, List.mem_map]
  simp only [beq_iff_eq]

/-- **A list loses nothing just if its keys are distinct.** -/
theorem length_ofList_eq_iff {as : List α} :
    (ofList key as).length = as.length ↔ (as.map key).Nodup := by
  classical
  have hperm : ((ofList key as).map key).Perm (as.map key).dedup :=
    (List.perm_ext_iff_of_nodup (isSorted_ofList as).nodup (List.nodup_dedup _)).mpr fun k => by
      rw [List.mem_dedup, ← any_key_iff, ← any_key_iff, any_key_ofList]
  have hlength := hperm.length_eq
  rw [List.length_map] at hlength
  rw [hlength]
  constructor
  · intro h
    rw [← (List.dedup_sublist _).eq_of_length (h.trans (List.length_map key).symm)]
    exact List.nodup_dedup _
  · intro h
    rw [h.dedup, List.length_map]

end AdditiveSchema.Keyed
