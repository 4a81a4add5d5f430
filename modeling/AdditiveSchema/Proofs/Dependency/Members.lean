import AdditiveSchema.Proofs.Dependency.Requests
import AdditiveSchema.Proofs.Except

/-!
# What a sort reports

If there is no order that keeps to the recorded dependencies, a sort reports nodes. All nodes that
depend on themselves through others are among them. But so are those that stand between two circles
of dependencies: such a node depends on nodes of the one circle, so it cannot be placed, and nodes
of the other one depend on it, so it cannot be done without.

## Main definitions

* `IsBetween` : an element leads to a circle, and a circle leads to it.

## Main results

* `DependencyGraph.mem_iff_of_sort_error` : the nodes that are reported.
* `DependencyGraph.sort_reportsCircles_iff` : when they are just those on circles.
-/

namespace AdditiveSchema

/-! ### Between circles -/

section Between

variable {α : Type} {R : α → α → Prop} {a : α}

/-- A circle leads to the element, and the element leads to a circle. -/
def IsBetween (R : α → α → Prop) (a : α) : Prop :=
  ∃ b c, Relation.TransGen R b b ∧ Relation.ReflTransGen R b a ∧ Relation.ReflTransGen R a c ∧
    Relation.TransGen R c c

theorem isBetween_iff : IsBetween R a ↔ LeadsRound R a ∧ LeadsRound (fun a b => R b a) a := by
  constructor
  · rintro ⟨b, c, hb, hba, hac, hc⟩
    exact ⟨⟨c, hac, hc⟩, b, hba.swap, hb.swap⟩
  · rintro ⟨⟨c, hac, hc⟩, b, hab, hb⟩
    exact ⟨b, c, hb.swap, hab.swap, hac, hc⟩

/-- An element of a circle is between circles: between this one and itself. -/
theorem isBetween_of_transGen (h : Relation.TransGen R a a) : IsBetween R a :=
  ⟨a, a, h, .refl, .refl, h⟩

/-- More relations leave an element between circles. -/
theorem IsBetween.mono {S : α → α → Prop} (hRS : ∀ a b, R a b → S a b) (h : IsBetween R a) :
    IsBetween S a := by
  obtain ⟨b, c, hb, hba, hac, hc⟩ := h
  exact ⟨b, c, Relation.TransGen.mono hRS _ _ hb, Relation.ReflTransGen.mono hRS _ _ hba,
    Relation.ReflTransGen.mono hRS _ _ hac, Relation.TransGen.mono hRS _ _ hc⟩

end Between

namespace DependencyGraph

variable {α : Type} [BEq α] [LawfulBEq α] [Ord α] {requests : List (Request α)} {members : List α}

/-- **The nodes that a sort reports** are those between circles of dependencies. -/
theorem mem_iff_of_sort_error {g : DependencyGraph α}
    (hnodes : ∀ a b, g.dependsOn a b = true → a ∈ g.nodes) (h : g.sort = .error members) {a : α} :
    a ∈ members ↔ IsBetween (g.dependsOn · ·) a := by
  obtain ⟨rest, hplace, rfl⟩ := Except.mapError_eq_error_iff.mp h
  rw [(List.mergeSort_perm _ _).mem_iff, mem_core_iff_leadsRound hnodes hplace, isBetween_iff]

/-- Where nodes can be sorted, none of them is between circles. -/
theorem not_isBetween_of_sort_ok {g : DependencyGraph α}
    (hnodes : ∀ a b, g.dependsOn a b = true → a ∈ g.nodes) {sorted : List α}
    (h : g.sort = .ok sorted) (a : α) : ¬IsBetween (g.dependsOn · ·) a := by
  rintro ⟨b, -, hb, -⟩
  exact (exists_sort_eq_ok_iff_not_transGen hnodes).mp ⟨sorted, h⟩ ⟨b, hb⟩

/-- The reported nodes in terms of what is recorded. -/
theorem mem_members_iff (h : (ofRequests requests).sort = .error members) {a : α} :
    a ∈ members ↔ IsBetween (Recorded requests) a := by
  rw [mem_iff_of_sort_error mem_nodes_of_dependsOn h]
  simp only [dependsOn_ofRequests]

/-- The reported nodes are in order, and none of them is reported twice. -/
theorem pairwise_members [Std.TransOrd α] [Std.LawfulEqOrd α]
    (h : (ofRequests requests).sort = .error members) :
    members.Pairwise fun a b => compare a b = .lt := by
  obtain ⟨rest, hplace, rfl⟩ := Except.mapError_eq_error_iff.mp h
  have hnodup : ((ofRequests requests).core rest).Nodup :=
    (nodup_nodes_ofRequests requests).sublist ((core_sublist _ rest).trans (rest_sublist hplace))
  have hne := ((List.mergeSort_perm _ fun a b => (compare a b).isLE).nodup_iff.mpr hnodup)
  refine ((pairwise_mergeSort_isLE _).and hne).imp fun {a b} hab => ?_
  cases hcompare : compare a b with
  | lt => rfl
  | eq => exact absurd (Std.LawfulEqOrd.eq_of_compare hcompare) hab.2
  | gt => simp [hcompare] at hab

/-- **When a sort reports circles alone.** The nodes that it reports, at least one, are in order and
without repetition. Each node that depends on itself through recorded dependencies is among them,
and so is each node between circles. So they are just the nodes on circles if there is no other node
between circles. -/
theorem sort_reportsCircles_iff [Std.TransOrd α] [Std.LawfulEqOrd α]
    (h : (ofRequests requests).sort = .error members) :
    members ≠ [] ∧ (members.Pairwise fun a b => compare a b = .lt) ∧
    (∀ a, a ∈ members ↔ IsBetween (Recorded requests) a) ∧
    (∀ a, Relation.TransGen (Recorded requests) a a → a ∈ members) ∧
    ((∀ a, a ∈ members ↔ Relation.TransGen (Recorded requests) a a) ↔
      ∀ a, IsBetween (Recorded requests) a → Relation.TransGen (Recorded requests) a a) := by
  have hmembers (a : α) : a ∈ members ↔ IsBetween (Recorded requests) a := mem_members_iff h
  refine ⟨(exists_dependsOn_of_sort_error h).1, pairwise_members h, hmembers, fun a ha => ?_, ?_⟩
  · exact (hmembers a).mpr (isBetween_of_transGen ha)
  · constructor
    · intro hall a ha
      exact (hall a).mp ((hmembers a).mpr ha)
    · exact fun hall a => (hmembers a).trans ⟨hall a, isBetween_of_transGen⟩

/-- Staff and stores need each other, and so do rentals and the inventory. Payments need staff, and
rentals need payments. -/
def shopRequested : List (Request String) :=
  [.node "staff", .node "store", .node "payment", .node "rental", .node "inventory",
    .dependency "staff" "store", .dependency "store" "staff", .dependency "payment" "staff",
    .dependency "rental" "payment", .dependency "rental" "inventory",
    .dependency "inventory" "rental"]

/-- What is recorded of these requests. -/
theorem recorded_shopRequested_iff {a b : String} :
    Recorded shopRequested a b ↔ (a, b) ∈ [("staff", "store"), ("store", "staff"),
      ("payment", "staff"), ("rental", "payment"), ("rental", "inventory"),
      ("inventory", "rental")] := by
  rw [← dependsOn_ofRequests, dependsOn, List.contains_iff_mem]
  rfl

theorem transGen_rental : Relation.TransGen (Recorded shopRequested) "rental" "rental" :=
  .tail (.single (recorded_shopRequested_iff (b := "inventory").mpr (by decide)))
    (recorded_shopRequested_iff.mpr (by decide))

theorem transGen_staff : Relation.TransGen (Recorded shopRequested) "staff" "staff" :=
  .tail (.single (recorded_shopRequested_iff (b := "store").mpr (by decide)))
    (recorded_shopRequested_iff.mpr (by decide))

/-- Payments stand between rentals and staff. -/
theorem isBetween_payment : IsBetween (Recorded shopRequested) "payment" :=
  ⟨"rental", "staff", transGen_rental, .single (recorded_shopRequested_iff.mpr (by decide)),
    .single (recorded_shopRequested_iff.mpr (by decide)), transGen_staff⟩

/-- Payments depend on staff and stores only. -/
theorem not_transGen_payment :
    ¬Relation.TransGen (Recorded shopRequested) "payment" "payment" := by
  have hreaches {a : String} (h : Relation.TransGen (Recorded shopRequested) "payment" a) :
      a = "staff" ∨ a = "store" := by
    induction h with
    | single h => exact Or.inl (by simpa using recorded_shopRequested_iff.mp h)
    | tail _ h ih =>
      rcases ih with rfl | rfl
      · exact Or.inr (by simpa using recorded_shopRequested_iff.mp h)
      · exact Or.inl (by simpa using recorded_shopRequested_iff.mp h)
  exact fun h => absurd (hreaches h) (by decide)

theorem exists_sort_shopRequested :
    ∃ members, (ofRequests shopRequested).sort = .error members := by
  cases hsort : (ofRequests shopRequested).sort with
  | error members => exact ⟨members, rfl⟩
  | ok sorted =>
    have hcircle := (exists_sort_eq_ok_iff_not_transGen mem_nodes_of_dependsOn).mp ⟨sorted, hsort⟩
    simp only [dependsOn_ofRequests] at hcircle
    obtain ⟨a, -, ha, -⟩ := isBetween_payment
    exact absurd ⟨a, ha⟩ hcircle

/-- Rentals and staff are reported, since they are on circles, and so are payments. -/
theorem sort_reportsCircles_iff_shop :
    ∃ members, (ofRequests shopRequested).sort = .error members ∧
      (members.Pairwise fun a b => compare a b = .lt) ∧
      "rental" ∈ members ∧ "staff" ∈ members ∧ "payment" ∈ members ∧
      ¬∀ a, a ∈ members ↔ Relation.TransGen (Recorded shopRequested) a a := by
  obtain ⟨members, hsort⟩ := exists_sort_shopRequested
  obtain ⟨-, hsorted, hbetween, hcircles, hiff⟩ := sort_reportsCircles_iff hsort
  refine ⟨members, hsort, hsorted, hcircles _ transGen_rental, hcircles _ transGen_staff,
    (hbetween _).mpr isBetween_payment, fun hall => ?_⟩
  exact not_transGen_payment (hiff.mp hall _ isBetween_payment)

/-- Payments are reported, and no payment depends on itself. -/
theorem sort_reportsPayment :
    ∃ members, (ofRequests shopRequested).sort = .error members ∧ "payment" ∈ members ∧
      ¬Relation.TransGen (Recorded shopRequested) "payment" "payment" := by
  obtain ⟨members, hsort⟩ := exists_sort_shopRequested
  exact ⟨members, hsort, (mem_members_iff hsort).mpr isBetween_payment, not_transGen_payment⟩

end DependencyGraph

end AdditiveSchema
