import AdditiveSchema.Plan.Dependency
import AdditiveSchema.Proofs.Circle
import Mathlib.Data.List.Nodup
import Mathlib.Data.List.Perm.Basic

/-!
# Sorting by dependencies

A sort that succeeds gives the nodes of the graph, each behind all nodes it depends on. A sort that
fails gives nodes each of which depends on another one of them, so no order of them could do. Which
nodes these are depends on the edges alone: what cannot be placed is the largest set of nodes each
of which depends on another one, and what is reported of it is the largest set of nodes on each of
which another one depends.

## Main definitions

* `DependencyGraph.IsBlocked`, `DependencyGraph.IsNeededWithin` : each of some nodes depends on
  another one of them, or another one of them depends on it.

## Main results

* `DependencyGraph.perm_of_sort`, `DependencyGraph.pairwise_of_sort` : the order of a sort.
* `DependencyGraph.exists_dependsOn_of_sort_error` : what stands in the way of a sort.
* `DependencyGraph.exists_sort_eq_ok_iff` : when a sort succeeds.
* `DependencyGraph.mem_rest_iff`, `DependencyGraph.mem_core_iff` : which nodes are left.
* `DependencyGraph.exists_sort_eq_ok_iff_not_transGen` : when a sort succeeds, by circles.
* `DependencyGraph.mem_rest_iff_leadsRound`, `DependencyGraph.mem_core_iff_leadsRound` : which nodes
  are left, by circles.
* `DependencyGraph.sort_congr` : the order of the nodes does not matter to what a sort reports.
-/

namespace AdditiveSchema.DependencyGraph

variable {α β : Type} [BEq α] [LawfulBEq α]

/-! ### Graphs that are built step by step -/

theorem nodes_addNode_of_notMem {g : DependencyGraph α} {a : α} (h : a ∉ g.nodes) :
    (g.addNode a).nodes = g.nodes ++ [a] := by
  simp [addNode, h]

theorem mem_nodes_addNode {g : DependencyGraph α} {a b : α} :
    b ∈ (g.addNode a).nodes ↔ b ∈ g.nodes ∨ b = a := by
  by_cases ha : a ∈ g.nodes
  · simp only [addNode, List.contains_iff_mem.mpr ha, if_true, iff_self_or]
    rintro rfl
    exact ha
  · rw [nodes_addNode_of_notMem ha, List.mem_append, List.mem_singleton]

theorem nodup_nodes_addNode {g : DependencyGraph α} (h : g.nodes.Nodup) (a : α) :
    (g.addNode a).nodes.Nodup := by
  by_cases ha : a ∈ g.nodes
  · rwa [addNode, if_pos (List.contains_iff_mem.mpr ha)]
  · rw [nodes_addNode_of_notMem ha, ← List.concat_eq_append]
    exact h.concat ha

omit [LawfulBEq α] in
@[simp] theorem dependsOn_addNode (g : DependencyGraph α) (a x y : α) :
    (g.addNode a).dependsOn x y = g.dependsOn x y := by
  unfold addNode
  split <;> rfl

/-- Adding distinct nodes to a graph without nodes gives just these, in order. -/
theorem nodes_foldl_addNode (f : β → α) (bs : List β) (h : (bs.map f).Nodup) :
    (bs.foldl (fun g b => addNode g (f b)) ({} : DependencyGraph α)).nodes = bs.map f := by
  suffices hgen : ∀ g : DependencyGraph α, (∀ a ∈ g.nodes, a ∉ bs.map f) →
      (bs.foldl (fun g b => addNode g (f b)) g).nodes = g.nodes ++ bs.map f from
    (hgen {} (by simp)).trans (List.nil_append _)
  induction bs with
  | nil => simp
  | cons b bs ih =>
    intro g hg
    simp only [List.map_cons, List.nodup_cons, List.mem_cons, not_or] at h hg
    have hb : f b ∉ g.nodes := fun hb => (hg _ hb).1 rfl
    rw [List.foldl_cons, ih h.2, nodes_addNode_of_notMem hb, List.map_cons, List.append_assoc,
      List.singleton_append]
    intro a ha
    rw [nodes_addNode_of_notMem hb, List.mem_append, List.mem_singleton] at ha
    rcases ha with ha | rfl
    · exact (hg a ha).2
    · exact h.1

theorem mem_nodes_foldl_addNode {f : β → α} {bs : List β} {g : DependencyGraph α} {a : α} :
    a ∈ (bs.foldl (fun g b => addNode g (f b)) g).nodes ↔ a ∈ g.nodes ∨ a ∈ bs.map f := by
  induction bs generalizing g with
  | nil => simp
  | cons b bs ih =>
    rw [List.foldl_cons, ih, mem_nodes_addNode, List.map_cons, List.mem_cons, or_assoc]

/-- A node is added once. -/
theorem nodup_nodes_foldl_addNode (f : β → α) (bs : List β) {g : DependencyGraph α}
    (h : g.nodes.Nodup) : (bs.foldl (fun g b => addNode g (f b)) g).nodes.Nodup := by
  induction bs generalizing g with
  | nil => exact h
  | cons b bs ih => exact ih (nodup_nodes_addNode h (f b))

omit [LawfulBEq α] in
@[simp] theorem dependsOn_foldl_addNode (f : β → α) (bs : List β) (g : DependencyGraph α)
    (x y : α) : (bs.foldl (fun g b => addNode g (f b)) g).dependsOn x y = g.dependsOn x y := by
  induction bs generalizing g with
  | nil => rfl
  | cons b bs ih => rw [List.foldl_cons, ih, dependsOn_addNode]

omit [LawfulBEq α] in
@[simp] theorem nodes_addDependency (g : DependencyGraph α) (a b : α) :
    (g.addDependency a b).nodes = g.nodes := by
  unfold addDependency
  split <;> rfl

theorem dependsOn_addDependency {g : DependencyGraph α} {a b x y : α} :
    (g.addDependency a b).dependsOn x y = true ↔
      g.dependsOn x y = true ∨ (x, y) = (a, b) ∧ x ≠ y ∧ x ∈ g.nodes ∧ y ∈ g.nodes := by
  unfold addDependency
  split
  · rename_i h
    simp only [Bool.or_eq_true, beq_iff_eq, Bool.not_eq_true', List.contains_eq_mem,
      decide_eq_false_iff_not] at h
    rw [iff_self_or]
    rintro ⟨hxy, hne, hx, hy⟩
    cases hxy
    rcases h with (h | h) | h <;> contradiction
  · rename_i h
    simp only [Bool.or_eq_true, beq_iff_eq, Bool.not_eq_true', List.contains_eq_mem,
      decide_eq_false_iff_not, not_or, not_not] at h
    simp only [dependsOn, List.contains_iff_mem, List.mem_append, List.mem_singleton]
    refine or_congr_right ⟨fun hxy => ?_, And.left⟩
    cases hxy
    exact ⟨rfl, h.1.1, h.1.2, h.2⟩

omit [LawfulBEq α] in
@[simp] theorem nodes_foldl_addDependency (es : List (α × α)) (g : DependencyGraph α) :
    (es.foldl (fun g e => g.addDependency e.1 e.2) g).nodes = g.nodes := by
  induction es generalizing g with
  | nil => rfl
  | cons e es ih => rw [List.foldl_cons, ih, nodes_addDependency]

/-- The edges of a graph are the recorded dependencies between two different nodes of it. -/
theorem dependsOn_foldl_addDependency {es : List (α × α)} {g : DependencyGraph α} {x y : α} :
    (es.foldl (fun g e => g.addDependency e.1 e.2) g).dependsOn x y = true ↔
      g.dependsOn x y = true ∨ (x, y) ∈ es ∧ x ≠ y ∧ x ∈ g.nodes ∧ y ∈ g.nodes := by
  induction es generalizing g with
  | nil => simp
  | cons e es ih =>
    rw [List.foldl_cons, ih, dependsOn_addDependency, nodes_addDependency, List.mem_cons, or_assoc,
      ← or_and_right]

/-! ### The order of a sort -/

omit [LawfulBEq α] in
theorem isReady_iff {g : DependencyGraph α} {remaining : List α} {a : α} :
    g.isReady remaining a = true ↔ ∀ b ∈ remaining, g.dependsOn a b = false := by
  simp [isReady]

theorem perm_of_place {g : DependencyGraph α} {remaining sorted : List α}
    (h : g.place remaining = .ok sorted) : sorted.Perm remaining := by
  fun_induction place g remaining generalizing sorted with
  | case1 remaining a ha _ _ ih =>
    cases hrest : g.place (remaining.erase a) with
    | error rest => rw [hrest] at h; cases h
    | ok rest =>
      rw [hrest] at h
      cases h
      exact ((ih hrest).cons a).trans (List.perm_cons_erase (List.mem_of_find?_eq_some ha)).symm
  | case2 remaining _ hempty =>
    cases h
    rw [List.isEmpty_iff.mp hempty]
  | case3 => cases h

/-- **A node depends on no later one.** -/
theorem pairwise_of_place {g : DependencyGraph α} {remaining sorted : List α}
    (h : g.place remaining = .ok sorted) : sorted.Pairwise fun a b => g.dependsOn a b = false := by
  fun_induction place g remaining generalizing sorted with
  | case1 remaining a ha _ _ ih =>
    cases hrest : g.place (remaining.erase a) with
    | error rest => rw [hrest] at h; cases h
    | ok rest =>
      rw [hrest] at h
      cases h
      refine List.pairwise_cons.mpr ⟨fun b hb => ?_, ih hrest⟩
      have hready := isReady_iff.mp (List.find?_some ha)
      exact hready b (List.mem_of_mem_erase ((perm_of_place hrest).mem_iff.mp hb))
  | case2 remaining _ hempty =>
    cases h
    exact List.Pairwise.nil
  | case3 => cases h

/-! ### What stands in the way of a sort -/

theorem place_error {g : DependencyGraph α} {remaining rest : List α}
    (h : g.place remaining = .error rest) :
    rest ≠ [] ∧ rest ⊆ remaining ∧ ∀ a ∈ rest, ∃ b ∈ rest, g.dependsOn a b = true := by
  fun_induction place g remaining generalizing rest with
  | case1 remaining a ha _ _ ih =>
    cases hrest : g.place (remaining.erase a) with
    | ok sorted => rw [hrest] at h; cases h
    | error rest' =>
      rw [hrest] at h
      cases h
      obtain ⟨hne, hsub, hdep⟩ := ih hrest
      exact ⟨hne, List.Subset.trans hsub List.erase_subset, hdep⟩
  | case2 => cases h
  | case3 remaining hnone hempty =>
    cases h
    refine ⟨fun hnil => hempty (by simp [hnil]), List.Subset.refl _, fun a ha => ?_⟩
    have hready := List.find?_eq_none.mp hnone a ha
    simpa [isReady] using hready

/-- Taking away nodes that no remaining one depends on leaves a row of nodes each of which still
depends on another. -/
theorem exists_dependsOn_of_mem_core {g : DependencyGraph α} {remaining : List α}
    (hne : remaining ≠ []) (hdep : ∀ a ∈ remaining, ∃ b ∈ remaining, g.dependsOn a b = true) :
    g.core remaining ≠ [] ∧ g.core remaining ⊆ remaining ∧
      ∀ a ∈ g.core remaining, ∃ b ∈ g.core remaining, g.dependsOn a b = true := by
  fun_induction core g remaining with
  | case1 remaining n hn _ _ ih =>
    have hneeded : ∀ a ∈ remaining, g.dependsOn a n = false := by
      have hn := List.find?_some hn
      simpa [isNeeded] using hn
    have hmem (a : α) (ha : a ∈ remaining) :
        ∃ b ∈ remaining.erase n, g.dependsOn a b = true := by
      obtain ⟨b, hb, hab⟩ := hdep a ha
      have hbn : b ≠ n := fun hbn => by
        rw [hbn, hneeded a ha] at hab
        cases hab
      exact ⟨b, (List.mem_erase_of_ne hbn).mpr hb, hab⟩
    have hne' : remaining.erase n ≠ [] := by
      obtain ⟨b, hb, -⟩ := hmem n (List.mem_of_find?_eq_some hn)
      exact List.ne_nil_of_mem hb
    obtain ⟨h1, h2, h3⟩ := ih hne' fun a ha => hmem a (List.mem_of_mem_erase ha)
    exact ⟨h1, List.Subset.trans h2 List.erase_subset, h3⟩
  | case2 => exact ⟨hne, List.Subset.refl _, hdep⟩

/-! ### Which nodes are left -/

/-- Each of the nodes depends on one of them. -/
def IsBlocked (g : DependencyGraph α) (nodes : List α) : Prop :=
  ∀ a ∈ nodes, ∃ b ∈ nodes, g.dependsOn a b = true

/-- Each of the nodes is one that one of them depends on. -/
def IsNeededWithin (g : DependencyGraph α) (nodes : List α) : Prop :=
  ∀ a ∈ nodes, ∃ b ∈ nodes, g.dependsOn b a = true

/-- A node that is ready is none of those that block one another. -/
theorem IsBlocked.subset_erase {g : DependencyGraph α} {blocked remaining : List α}
    (h : g.IsBlocked blocked) (hsub : blocked ⊆ remaining) {a : α}
    (hready : g.isReady remaining a = true) : blocked ⊆ remaining.erase a := by
  intro b hb
  refine (List.mem_erase_of_ne ?_).mpr (hsub hb)
  rintro rfl
  obtain ⟨c, hc, hbc⟩ := h b hb
  rw [isReady_iff.mp hready c (hsub hc)] at hbc
  cases hbc

/-- Nodes that block one another are never placed. -/
theorem IsBlocked.subset_rest {g : DependencyGraph α} {blocked remaining rest : List α}
    (h : g.IsBlocked blocked) (hsub : blocked ⊆ remaining)
    (hplace : g.place remaining = .error rest) : blocked ⊆ rest := by
  fun_induction place g remaining generalizing rest with
  | case1 remaining a ha _ _ ih =>
    cases hrest : g.place (remaining.erase a) with
    | ok sorted => rw [hrest] at hplace; cases hplace
    | error rest' =>
      rw [hrest] at hplace
      cases hplace
      exact ih (h.subset_erase hsub (List.find?_some ha)) hrest
  | case2 => cases hplace
  | case3 =>
    cases hplace
    exact hsub

theorem IsBlocked.eq_nil_of_place {g : DependencyGraph α} {blocked remaining sorted : List α}
    (h : g.IsBlocked blocked) (hsub : blocked ⊆ remaining)
    (hplace : g.place remaining = .ok sorted) : blocked = [] := by
  fun_induction place g remaining generalizing sorted with
  | case1 remaining a ha _ _ ih =>
    cases hrest : g.place (remaining.erase a) with
    | error rest => rw [hrest] at hplace; cases hplace
    | ok sorted' => exact ih (h.subset_erase hsub (List.find?_some ha)) hrest
  | case2 remaining _ hempty =>
    rw [List.isEmpty_iff.mp hempty] at hsub
    exact List.subset_nil.mp hsub
  | case3 => cases hplace

/-- **What cannot be placed** is the largest set of nodes that block one another. -/
theorem mem_rest_iff {g : DependencyGraph α} {remaining rest : List α}
    (h : g.place remaining = .error rest) {a : α} :
    a ∈ rest ↔ ∃ blocked ⊆ remaining, g.IsBlocked blocked ∧ a ∈ blocked := by
  constructor
  · intro ha
    obtain ⟨-, hsub, hdep⟩ := place_error h
    exact ⟨rest, hsub, hdep, ha⟩
  · rintro ⟨blocked, hsub, hblocked, ha⟩
    exact hblocked.subset_rest hsub h ha

theorem core_sublist (g : DependencyGraph α) (remaining : List α) :
    (g.core remaining).Sublist remaining := by
  fun_induction core g remaining with
  | case1 remaining n _ _ _ ih => exact ih.trans List.erase_sublist
  | case2 => exact List.Sublist.refl _

theorem isNeededWithin_core (g : DependencyGraph α) (remaining : List α) :
    g.IsNeededWithin (g.core remaining) := by
  fun_induction core g remaining with
  | case1 _ _ _ _ _ ih => exact ih
  | case2 remaining hnone =>
    intro a ha
    have hneeded := List.find?_eq_none.mp hnone a ha
    simpa [isNeeded] using hneeded

theorem IsNeededWithin.subset_core {g : DependencyGraph α} {needed remaining : List α}
    (h : g.IsNeededWithin needed) (hsub : needed ⊆ remaining) : needed ⊆ g.core remaining := by
  fun_induction core g remaining with
  | case1 remaining n hn _ _ ih =>
    refine ih fun a ha => (List.mem_erase_of_ne ?_).mpr (hsub ha)
    rintro rfl
    obtain ⟨b, hb, hba⟩ := h a ha
    have hnot := List.find?_some hn
    simp only [isNeeded, Bool.not_eq_true', List.any_eq_false] at hnot
    exact hnot b (hsub hb) hba
  | case2 => exact hsub

/-- **What is reported** is the largest set of nodes on each of which one of them depends. -/
theorem mem_core_iff {g : DependencyGraph α} {remaining : List α} {a : α} :
    a ∈ g.core remaining ↔ ∃ needed ⊆ remaining, g.IsNeededWithin needed ∧ a ∈ needed := by
  constructor
  · intro ha
    exact ⟨_, (g.core_sublist remaining).subset, g.isNeededWithin_core remaining, ha⟩
  · rintro ⟨needed, hsub, hneeded, ha⟩
    exact hneeded.subset_core hsub ha

theorem rest_sublist {g : DependencyGraph α} {remaining rest : List α}
    (h : g.place remaining = .error rest) : rest.Sublist remaining := by
  fun_induction place g remaining generalizing rest with
  | case1 remaining a ha _ _ ih =>
    cases hrest : g.place (remaining.erase a) with
    | ok sorted => rw [hrest] at h; cases h
    | error rest' =>
      rw [hrest] at h
      cases h
      exact (ih hrest).trans List.erase_sublist
  | case2 => cases h
  | case3 =>
    cases h
    exact List.Sublist.refl _

/-! ### Placing in another order -/

section

variable {g g' : DependencyGraph α} {rest rest' : List α}

omit [LawfulBEq α] in
theorem isBlocked_congr (hdep : g'.dependsOn = g.dependsOn) (nodes : List α) :
    g'.IsBlocked nodes ↔ g.IsBlocked nodes := by
  rw [IsBlocked, IsBlocked, hdep]

omit [LawfulBEq α] in
theorem isNeededWithin_congr (hdep : g'.dependsOn = g.dependsOn) (nodes : List α) :
    g'.IsNeededWithin nodes ↔ g.IsNeededWithin nodes := by
  rw [IsNeededWithin, IsNeededWithin, hdep]

/-- Nodes that can all be placed in one order can all be placed in any other. -/
theorem exists_place_of_perm (hnodes : g'.nodes.Perm g.nodes) (hdep : g'.dependsOn = g.dependsOn)
    {sorted : List α} (hplace : g.place g.nodes = .ok sorted) :
    ∃ sorted', g'.place g'.nodes = .ok sorted' := by
  cases hplace' : g'.place g'.nodes with
  | ok sorted' => exact ⟨sorted', rfl⟩
  | error stuck =>
    obtain ⟨hne, hsub, hblocked⟩ := place_error hplace'
    exact absurd (((isBlocked_congr hdep stuck).mp hblocked).eq_nil_of_place
      (List.Subset.trans hsub hnodes.subset) hplace) hne

/-- The nodes that can neither be placed nor done without are the same in every order. -/
theorem perm_core (hnodup : g.nodes.Nodup) (hnodes : g'.nodes.Perm g.nodes)
    (hdep : g'.dependsOn = g.dependsOn) (hplace : g.place g.nodes = .error rest)
    (hplace' : g'.place g'.nodes = .error rest') : (g.core rest).Perm (g'.core rest') := by
  have hrest (a : α) : a ∈ rest ↔ a ∈ rest' := by
    rw [mem_rest_iff hplace, mem_rest_iff hplace']
    simp only [isBlocked_congr hdep, List.Perm.subset_congr_right hnodes]
  have hcore (a : α) : a ∈ g.core rest ↔ a ∈ g'.core rest' := by
    rw [mem_core_iff, mem_core_iff]
    simp only [isNeededWithin_congr hdep, List.subset_def, hrest]
  refine (List.perm_ext_iff_of_nodup ?_ ?_).mpr hcore
  · exact hnodup.sublist ((g.core_sublist rest).trans (rest_sublist hplace))
  · exact (hnodes.nodup_iff.mpr hnodup).sublist
      ((g'.core_sublist rest').trans (rest_sublist hplace'))

end

variable [Ord α]

theorem place_of_sort_ok {g : DependencyGraph α} {sorted : List α} (h : g.sort = .ok sorted) :
    g.place g.nodes = .ok sorted := by
  unfold sort at h
  cases hplace : g.place g.nodes with
  | error rest => rw [hplace] at h; cases h
  | ok rest => rw [hplace] at h; cases h; rfl

/-- A sort gives the nodes of the graph. -/
theorem perm_of_sort {g : DependencyGraph α} {sorted : List α} (h : g.sort = .ok sorted) :
    sorted.Perm g.nodes :=
  perm_of_place (place_of_sort_ok h)

/-- **A sort puts every node behind those it depends on.** -/
theorem pairwise_of_sort {g : DependencyGraph α} {sorted : List α} (h : g.sort = .ok sorted) :
    sorted.Pairwise fun a b => g.dependsOn a b = false :=
  pairwise_of_place (place_of_sort_ok h)

/-- What a sort reports, if the nodes that cannot be placed shrink to nodes in order. -/
theorem sort_eq_error {g : DependencyGraph α} {rest members : List α}
    (hplace : g.place g.nodes = .error rest) (hcore : g.core rest = members)
    (hsorted : members.Pairwise fun a b => (compare a b).isLE = true) :
    g.sort = .error members := by
  subst hcore
  rw [sort, hplace]
  exact congrArg Except.error (List.mergeSort_of_pairwise hsorted)

/-- **What stands in the way of a sort.** Each of the reported nodes depends on another one. -/
theorem exists_dependsOn_of_sort_error {g : DependencyGraph α} {members : List α}
    (h : g.sort = .error members) :
    members ≠ [] ∧ ∀ a ∈ members, ∃ b ∈ members, g.dependsOn a b = true := by
  unfold sort at h
  cases hplace : g.place g.nodes with
  | ok sorted => rw [hplace] at h; cases h
  | error rest =>
    rw [hplace] at h
    cases h
    obtain ⟨hne, -, hdep⟩ := place_error hplace
    obtain ⟨hne, -, hdep⟩ := exists_dependsOn_of_mem_core hne hdep
    refine ⟨fun hnil => hne ?_, fun a ha => ?_⟩
    · exact ((List.mergeSort_perm _ _).symm.trans (.of_eq hnil)).eq_nil
    · obtain ⟨b, hb, hab⟩ := hdep a ((List.mergeSort_perm _ _).mem_iff.mp ha)
      exact ⟨b, (List.mergeSort_perm _ _).mem_iff.mpr hb, hab⟩

/-- **When a sort succeeds.** Where no node depends on itself, all nodes can be sorted just if none
of them are stuck. -/
theorem exists_sort_eq_ok_iff {g : DependencyGraph α} (hself : ∀ a, g.dependsOn a a = false)
    (hnodes : ∀ a b, g.dependsOn a b = true → a ∈ g.nodes) :
    (∃ sorted, g.sort = .ok sorted) ↔
      ¬∃ stuck ⊆ g.nodes, IsStuck (fun a b => g.dependsOn a b = true) stuck := by
  constructor
  · rintro ⟨sorted, hsort⟩ ⟨stuck, hsub, hstuck⟩
    have hblocked : g.IsBlocked stuck := fun a ha => by
      obtain ⟨b, hb, hab, -⟩ := hstuck.exists_next a ha
      exact ⟨b, hb, hab⟩
    exact hstuck.ne_nil (hblocked.eq_nil_of_place hsub (place_of_sort_ok hsort))
  · intro h
    cases hsort : g.sort with
    | ok sorted => exact ⟨sorted, rfl⟩
    | error members =>
      obtain ⟨hne, hdep⟩ := exists_dependsOn_of_sort_error hsort
      refine absurd ⟨members, fun a ha => ?_, hne, fun a ha => ?_⟩ h
      · obtain ⟨b, -, hab⟩ := hdep a ha
        exact hnodes a b hab
      · obtain ⟨b, hb, hab⟩ := hdep a ha
        refine ⟨b, hb, hab, ?_⟩
        rintro rfl
        exact Bool.noConfusion ((hself b).symm.trans hab)

/-! ### Circles of dependencies -/

section Circles

variable {g : DependencyGraph α} {rest : List α} {a : α}

omit [LawfulBEq α] [Ord α] in
/-- The nodes that lead round block one another. -/
theorem exists_isBlocked (hnodes : ∀ a b, g.dependsOn a b = true → a ∈ g.nodes)
    (h : LeadsRound (g.dependsOn · ·) a) :
    ∃ blocked ⊆ g.nodes, g.IsBlocked blocked ∧ a ∈ blocked := by
  classical
  have hmem (b : α) (hb : LeadsRound (g.dependsOn · ·) b) :
      b ∈ g.nodes.filter (LeadsRound (g.dependsOn · ·) ·) := by
    obtain ⟨c, hbc, -⟩ := leadsRound_iff_exists_next.mp hb
    exact List.mem_filter.mpr ⟨hnodes b c hbc, decide_eq_true hb⟩
  refine ⟨_, List.filter_subset_self _, fun b hb => ?_, hmem a h⟩
  obtain ⟨c, hbc, hc⟩ :=
    leadsRound_iff_exists_next.mp (of_decide_eq_true (List.mem_filter.mp hb).2)
  exact ⟨c, hmem c hc, hbc⟩

omit [Ord α] in
/-- **What cannot be placed** leads to a circle. -/
theorem mem_rest_iff_leadsRound (hnodes : ∀ a b, g.dependsOn a b = true → a ∈ g.nodes)
    (h : g.place g.nodes = .error rest) : a ∈ rest ↔ LeadsRound (g.dependsOn · ·) a := by
  rw [mem_rest_iff h]
  constructor
  · rintro ⟨blocked, -, hblocked, ha⟩
    exact leadsRound_of_exists_next hblocked ha
  · exact exists_isBlocked hnodes

omit [Ord α] in
/-- **What is reported** leads to a circle, and a circle leads to it. -/
theorem mem_core_iff_leadsRound (hnodes : ∀ a b, g.dependsOn a b = true → a ∈ g.nodes)
    (h : g.place g.nodes = .error rest) :
    a ∈ g.core rest ↔
      LeadsRound (g.dependsOn · ·) a ∧ LeadsRound (fun a b => g.dependsOn b a) a := by
  classical
  rw [mem_core_iff]
  constructor
  · rintro ⟨needed, hsub, hneeded, ha⟩
    exact ⟨(mem_rest_iff_leadsRound hnodes h).mp (hsub ha), leadsRound_of_exists_next hneeded ha⟩
  · rintro ⟨hto, hfrom⟩
    refine ⟨rest.filter (LeadsRound (fun a b => g.dependsOn b a) ·), List.filter_subset_self _,
      fun b hb => ?_, ?_⟩
    · obtain ⟨hb, hfrom⟩ := List.mem_filter.mp hb
      obtain ⟨c, hcb, hc⟩ := leadsRound_iff_exists_next.mp (of_decide_eq_true hfrom)
      have hto : LeadsRound (g.dependsOn · ·) c :=
        .head hcb ((mem_rest_iff_leadsRound hnodes h).mp hb)
      exact ⟨c, List.mem_filter.mpr ⟨(mem_rest_iff_leadsRound hnodes h).mpr hto,
        decide_eq_true hc⟩, hcb⟩
    · exact List.mem_filter.mpr
        ⟨(mem_rest_iff_leadsRound hnodes h).mpr hto, decide_eq_true hfrom⟩

/-- **When a sort succeeds:** no node depends on itself through others. -/
theorem exists_sort_eq_ok_iff_not_transGen
    (hnodes : ∀ a b, g.dependsOn a b = true → a ∈ g.nodes) :
    (∃ sorted, g.sort = .ok sorted) ↔ ¬∃ a, Relation.TransGen (g.dependsOn · ·) a a := by
  constructor
  · rintro ⟨sorted, hsort⟩ ⟨a, ha⟩
    obtain ⟨blocked, hsub, hblocked, ha⟩ := exists_isBlocked hnodes ⟨a, .refl, ha⟩
    exact List.ne_nil_of_mem ha (hblocked.eq_nil_of_place hsub (place_of_sort_ok hsort))
  · intro h
    cases hsort : g.sort with
    | ok sorted => exact ⟨sorted, rfl⟩
    | error members =>
      obtain ⟨hne, hdep⟩ := exists_dependsOn_of_sort_error hsort
      obtain ⟨a, ha⟩ := List.exists_mem_of_ne_nil members hne
      obtain ⟨b, -, hb⟩ := leadsRound_of_exists_next hdep ha
      exact absurd ⟨b, hb⟩ h

end Circles

/-! ### Sorting in another order -/

variable [Std.TransOrd α] [Std.LawfulEqOrd α]

omit [BEq α] [LawfulBEq α] [Std.LawfulEqOrd α] in
theorem pairwise_mergeSort_isLE (as : List α) :
    (as.mergeSort fun a b => (compare a b).isLE).Pairwise fun a b => (compare a b).isLE = true :=
  List.pairwise_mergeSort (fun _ _ _ => Std.TransCmp.isLE_trans) (fun a b => by
    have hswap : compare b a = (compare a b).swap := Std.OrientedCmp.eq_swap
    rw [hswap]
    cases compare a b <;> rfl) as

omit [BEq α] [LawfulBEq α] in
/-- Sorting gives one list for all orders of its elements. -/
theorem mergeSort_eq_of_perm {as bs : List α} (h : as.Perm bs) :
    (as.mergeSort fun a b => (compare a b).isLE) = bs.mergeSort fun a b => (compare a b).isLE := by
  refine List.Perm.eq_of_pairwise (fun a b _ _ hab hba => ?_) (pairwise_mergeSort_isLE as)
    (pairwise_mergeSort_isLE bs)
    (((List.mergeSort_perm as _).trans h).trans (List.mergeSort_perm bs _).symm)
  exact Std.LawfulEqOrd.eq_of_compare (Std.OrientedCmp.isLE_antisymm hab hba)

/-- **The order of the nodes does not matter to what a sort reports.** Graphs with the same nodes
and edges can both be sorted, or the same nodes are reported. -/
theorem sort_congr {g g' : DependencyGraph α} (hnodup : g.nodes.Nodup)
    (hnodes : g'.nodes.Perm g.nodes) (hdep : g'.dependsOn = g.dependsOn) :
    (∃ sorted sorted', g.sort = .ok sorted ∧ g'.sort = .ok sorted') ∨
      ∃ members, g.sort = .error members ∧ g'.sort = .error members := by
  cases hplace : g.place g.nodes with
  | ok sorted =>
    obtain ⟨sorted', hplace'⟩ := exists_place_of_perm hnodes hdep hplace
    exact Or.inl ⟨sorted, sorted', by rw [sort, hplace]; rfl, by rw [sort, hplace']; rfl⟩
  | error rest =>
    cases hplace' : g'.place g'.nodes with
    | ok sorted' =>
      obtain ⟨sorted, hsorted⟩ := exists_place_of_perm hnodes.symm hdep.symm hplace'
      rw [hsorted] at hplace
      cases hplace
    | error rest' =>
      have hperm := perm_core hnodup hnodes hdep hplace hplace'
      refine Or.inr ⟨_, by rw [sort, hplace]; rfl, ?_⟩
      rw [sort, hplace']
      exact congrArg Except.error (mergeSort_eq_of_perm hperm.symm)

end AdditiveSchema.DependencyGraph
