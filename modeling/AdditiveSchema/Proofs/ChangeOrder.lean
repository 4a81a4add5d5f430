import AdditiveSchema.Plan.ChangeOrder
import Mathlib.Data.List.Basic

/-!
# The order of changes

Ordering the changes of existing tables neither loses nor doubles one, whether or not the
references between the new columns run in a circle, and it sorts them by what they add.

## Main definitions

* `Action.isChange` : the action adds to a table that is there.
* `Action.rank` : the place that actions of one kind have in a plan.

## Main results

* `ChangeOrder.perm_order` : the order holds the same changes.
* `ChangeOrder.pairwise_rank_order` : columns come before constraints, constraints before indices.
-/

namespace AdditiveSchema

namespace Action

/-- The action adds a column, a constraint or an index to a table that is there. -/
def isChange : Action → Bool
  | .createColumn .. => true
  | .createConstraint .. => true
  | .createIndex .. => true
  | _ => false

/-- The place in a plan of actions of this kind. -/
def rank : Action → Nat
  | .createTable .. => 0
  | .createColumn .. => 1
  | .createConstraint .. => 2
  | .createIndex .. => 3
  | .addForeignKey .. => 4

theorem rank_le_four (a : Action) : a.rank ≤ 4 := by
  cases a <;> simp [rank]

end Action

namespace ChangeOrder

theorem perm_orderColumns (columns : List (ColumnName × Column)) :
    (orderColumns columns).Perm columns := by
  unfold orderColumns
  split
  · exact List.mergeSort_perm _ _
  · exact List.Perm.refl _

/-- Taking the changes apart by what they add keeps each of them once. -/
theorem perm_split (changes : List Action) :
    ((newColumns changes).map (fun x => Action.createColumn x.1.table x.2) ++
      changes.filter isConstraint ++ changes.filter isOther).Perm changes := by
  induction changes with
  | nil => exact List.Perm.nil
  | cons a changes ih =>
    rw [List.append_assoc] at ih ⊢
    cases a with
    | createColumn => exact ih.cons _
    | createConstraint => exact List.perm_middle.trans (ih.cons _)
    | createTable | createIndex | addForeignKey =>
      rw [← List.append_assoc] at ih ⊢
      exact List.perm_middle.trans (ih.cons _)

/-- **The order holds the same changes.** -/
theorem perm_order (changes : List Action) : (order changes).Perm changes := by
  refine List.Perm.trans ?_ (perm_split changes)
  exact (((perm_orderColumns (newColumns changes)).map _).append_right _).append_right _

/-- **Columns come before constraints, constraints before indices.** -/
theorem pairwise_rank_order {changes : List Action} (h : ∀ a ∈ changes, a.isChange = true) :
    (order changes).Pairwise fun a b => a.rank ≤ b.rank := by
  have hcolumn : ∀ a ∈ (orderColumns (newColumns changes)).map
      (fun x => Action.createColumn x.1.table x.2), a.rank = 1 := by
    intro a ha
    obtain ⟨x, -, rfl⟩ := List.mem_map.mp ha
    rfl
  have hconstraint : ∀ a ∈ changes.filter isConstraint, a.rank = 2 := by
    intro a ha
    obtain ⟨-, ha⟩ := List.mem_filter.mp ha
    cases a with
    | createConstraint => rfl
    | createTable | createColumn | createIndex | addForeignKey => cases ha
  have hindex : ∀ a ∈ changes.filter isOther, a.rank = 3 := by
    intro a ha
    obtain ⟨hmem, ha⟩ := List.mem_filter.mp ha
    have hchange := h a hmem
    cases a with
    | createIndex => rfl
    | createColumn | createConstraint => cases ha
    | createTable | addForeignKey => cases hchange
  have hsame {k : Nat} {as : List Action} (has : ∀ a ∈ as, a.rank = k) :
      as.Pairwise fun a b => a.rank ≤ b.rank :=
    List.pairwise_of_forall_mem_list fun a ha b hb =>
      Nat.le_of_eq ((has a ha).trans (has b hb).symm)
  rw [order, List.append_assoc]
  refine List.pairwise_append.mpr ⟨hsame hcolumn, List.pairwise_append.mpr
    ⟨hsame hconstraint, hsame hindex, fun a ha b hb => ?_⟩, fun a ha b hb => ?_⟩
  · have := hconstraint a ha
    have := hindex b hb
    omega
  · have := hcolumn a ha
    rcases List.mem_append.mp hb with hb | hb
    · have := hconstraint b hb
      omega
    · have := hindex b hb
      omega

end ChangeOrder

end AdditiveSchema
