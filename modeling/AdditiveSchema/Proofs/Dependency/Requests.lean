import AdditiveSchema.Proofs.Dependency
import AdditiveSchema.Proofs.List

/-!
# Sorting what was requested

A graph is built by a row of requests, each of which adds a node or records that one node comes
after another. A dependency is recorded if both nodes were added before and are not the same. Of all
orders of the nodes that keep to the recorded dependencies, a sort gives the one that keeps closest
to the order in which the nodes were first requested; there is such an order if no node depends on
itself through others. A sort looks up the dependencies of nodes that were added only.

## Main definitions

* `DependencyGraph.Request`, `DependencyGraph.ofRequests` : requests, and the graph that they build.
* `DependencyGraph.Recorded` : the dependencies that a row of requests records.
* `DependencyGraph.IsOrder` : the nodes in an order that keeps to the recorded dependencies.
* `DependencyGraph.sort?` : a sort that fails if the dependencies of some node cannot be looked up.

## Main results

* `DependencyGraph.dependsOn_ofRequests` : the edges of a graph are the recorded dependencies.
* `DependencyGraph.eq_or_lex_of_place` : no order comes before that of a sort.
* `DependencyGraph.sort?_eq_some` : no look-up fails.
* `DependencyGraph.sort_isLeast` : all of this, for every row of requests.
-/

namespace AdditiveSchema.DependencyGraph

variable {α : Type}

/-! ### Graphs of requests -/

/-- What a graph may be asked for while it is built. -/
inductive Request (α : Type) where
  /-- The node is to be added. -/
  | node (a : α)
  /-- It is to be recorded that the node comes after the other one. -/
  | dependency (a b : α)
  deriving BEq, ReflBEq, LawfulBEq

variable [BEq α]

/-- The graph with the request served. -/
def serve (g : DependencyGraph α) : Request α → DependencyGraph α
  | .node a => g.addNode a
  | .dependency a b => g.addDependency a b

/-- The graph that is built by the requests, one after another. -/
def ofRequests (requests : List (Request α)) : DependencyGraph α :=
  requests.foldl serve {}

omit [BEq α] in
/-- It was recorded that the node comes after the other one: this was requested when both had been
added, and they are different. -/
def Recorded (requests : List (Request α)) (a b : α) : Prop :=
  a ≠ b ∧ ∃ before, before ++ [.dependency a b] <+: requests ∧
    .node a ∈ before ∧ .node b ∈ before

/-- When the node was requested first. -/
def requestedAt (requests : List (Request α)) (a : α) : Nat :=
  requests.idxOf (.node a)

/-- The nodes that were requested, each once, and each behind all nodes that it depends on. -/
structure IsOrder (requests : List (Request α)) (order : List α) : Prop where
  nodup : order.Nodup
  mem_iff : ∀ a, a ∈ order ↔ .node a ∈ requests
  behind : ∀ front a rest, order = front ++ a :: rest → ∀ b, Recorded requests a b → b ∈ front

theorem ofRequests_concat (requests : List (Request α)) (r : Request α) :
    ofRequests (requests ++ [r]) = (ofRequests requests).serve r := by
  rw [ofRequests, List.foldl_concat]
  rfl

variable [LawfulBEq α] {requests : List (Request α)} {a b : α}

theorem mem_nodes_ofRequests : a ∈ (ofRequests requests).nodes ↔ .node a ∈ requests := by
  induction requests using List.reverseRecOn with
  | nil => exact ⟨nofun, nofun⟩
  | append_singleton requests r ih =>
    rw [ofRequests_concat, List.mem_append, List.mem_singleton, ← ih]
    cases r with
    | node c => rw [serve, mem_nodes_addNode, Request.node.injEq]
    | dependency c d => simp [serve]

theorem nodup_nodes_ofRequests (requests : List (Request α)) :
    (ofRequests requests).nodes.Nodup := by
  induction requests using List.reverseRecOn with
  | nil => exact List.nodup_nil
  | append_singleton requests r ih =>
    rw [ofRequests_concat]
    cases r with
    | node c => exact nodup_nodes_addNode ih c
    | dependency c d => rwa [serve, nodes_addDependency]

omit [BEq α] [LawfulBEq α] in
/-- One more request records a dependency if it asks for it. -/
theorem recorded_concat_iff {r : Request α} :
    Recorded (requests ++ [r]) a b ↔ Recorded requests a b ∨
      r = .dependency a b ∧ a ≠ b ∧ .node a ∈ requests ∧ .node b ∈ requests := by
  simp only [Recorded, List.prefix_concat_iff, List.append_singleton_inj]
  constructor
  · rintro ⟨hne, before, ⟨rfl, rfl⟩ | hbefore, ha, hb⟩
    · exact Or.inr ⟨rfl, hne, ha, hb⟩
    · exact Or.inl ⟨hne, before, hbefore, ha, hb⟩
  · rintro (⟨hne, before, hbefore, ha, hb⟩ | ⟨rfl, hne, ha, hb⟩)
    · exact ⟨hne, before, Or.inr hbefore, ha, hb⟩
    · exact ⟨hne, requests, Or.inl ⟨rfl, rfl⟩, ha, hb⟩

/-- **The edges of the graph are the recorded dependencies.** -/
theorem dependsOn_ofRequests :
    (ofRequests requests).dependsOn a b = true ↔ Recorded requests a b := by
  induction requests using List.reverseRecOn with
  | nil => exact ⟨nofun, fun ⟨_, before, h, _⟩ => by simp at h⟩
  | append_singleton requests r ih =>
    rw [ofRequests_concat, recorded_concat_iff, ← ih]
    cases r with
    | node c => simp [serve]
    | dependency c d =>
      rw [serve, dependsOn_addDependency, mem_nodes_ofRequests, mem_nodes_ofRequests, Prod.mk.injEq,
        Request.dependency.injEq, eq_comm (a := a), eq_comm (a := b)]

theorem mem_nodes_of_dependsOn (a b : α) (h : (ofRequests requests).dependsOn a b = true) :
    a ∈ (ofRequests requests).nodes := by
  obtain ⟨-, before, hbefore, ha, -⟩ := dependsOn_ofRequests.mp h
  exact mem_nodes_ofRequests.mpr (hbefore.subset (List.mem_append_left _ ha))

/-- The nodes stand in the order in which they were requested first. -/
theorem pairwise_requestedAt_nodes (requests : List (Request α)) :
    (ofRequests requests).nodes.Pairwise (requestedAt requests · < requestedAt requests ·) := by
  induction requests using List.reverseRecOn with
  | nil => exact List.Pairwise.nil
  | append_singleton requests r ih =>
    have hold (c : α) (hc : c ∈ (ofRequests requests).nodes) :
        requestedAt (requests ++ [r]) c = requestedAt requests c :=
      List.idxOf_append_of_mem (mem_nodes_ofRequests.mp hc)
    have hnodes : (ofRequests requests).nodes.Pairwise
        (requestedAt (requests ++ [r]) · < requestedAt (requests ++ [r]) ·) := by
      refine ih.imp_of_mem fun {c d} hc hd hlt => ?_
      rwa [hold c hc, hold d hd]
    rw [ofRequests_concat]
    cases r with
    | dependency c d => rwa [serve, nodes_addDependency]
    | node c =>
      by_cases hc : c ∈ (ofRequests requests).nodes
      · rwa [serve, addNode, if_pos (List.contains_iff_mem.mpr hc)]
      · rw [serve, nodes_addNode_of_notMem hc]
        refine List.pairwise_append.mpr ⟨hnodes, List.pairwise_singleton _ _, fun d hd c' hc' => ?_⟩
        rw [List.mem_singleton.mp hc', hold d hd, requestedAt, requestedAt,
          List.idxOf_append_of_notMem (fun h => hc (mem_nodes_ofRequests.mpr h)),
          List.idxOf_cons_self]
        exact List.idxOf_lt_length_of_mem (mem_nodes_ofRequests.mp hd)

/-! ### Orders that keep to the dependencies -/

omit [BEq α] [LawfulBEq α] in
theorem pairwise_of_forall_append {R : α → α → Prop} {as : List α}
    (h : ∀ front a behind, as = front ++ a :: behind → ∀ b ∈ behind, R a b) : as.Pairwise R := by
  induction as with
  | nil => exact List.Pairwise.nil
  | cons a as ih =>
    refine List.pairwise_cons.mpr ⟨h [] a as rfl, ih fun front b behind heq => ?_⟩
    exact h (a :: front) b behind (by rw [heq, List.cons_append])

omit [LawfulBEq α] in
/-- Nodes in a row depend on no later ones just if all that each of them depends on comes before
it. -/
theorem pairwise_iff_behind {g : DependencyGraph α} {order : List α} (hnodup : order.Nodup)
    (hmem : ∀ a ∈ order, ∀ b, g.dependsOn a b = true → b ∈ order ∧ a ≠ b) :
    order.Pairwise (fun a b => g.dependsOn a b = false) ↔
      ∀ front a rest, order = front ++ a :: rest → ∀ b, g.dependsOn a b = true → b ∈ front := by
  constructor
  · rintro h front a rest rfl b hab
    obtain ⟨hb, hne⟩ := hmem a (by simp) b hab
    rcases List.mem_append.mp hb with hb | hb
    · exact hb
    · rcases List.mem_cons.mp hb with rfl | hb
      · exact absurd rfl hne
      · have hnot := (List.pairwise_cons.mp (List.pairwise_append.mp h).2.1).1 b hb
        rw [hnot] at hab
        cases hab
  · refine fun h => pairwise_of_forall_append fun front a rest heq b hb => ?_
    refine Bool.eq_false_iff.mpr fun hab => ?_
    have hdisjoint := (List.nodup_append.mp (heq ▸ hnodup)).2.2
    exact hdisjoint b (h front a rest heq b hab) b (List.mem_cons_of_mem a hb) rfl

/-- An order of the nodes that keeps to the recorded dependencies, said of the graph. -/
theorem isOrder_iff {order : List α} :
    IsOrder requests order ↔ order.Perm (ofRequests requests).nodes ∧
      order.Pairwise fun a b => (ofRequests requests).dependsOn a b = false := by
  have hbehind (hnodup : order.Nodup) (hmem : ∀ a, a ∈ order ↔ .node a ∈ requests) :=
    pairwise_iff_behind (g := ofRequests requests) hnodup fun a _ b hab => by
      obtain ⟨hne, before, hbefore, -, hb⟩ := dependsOn_ofRequests.mp hab
      exact ⟨(hmem b).mpr (hbefore.subset (List.mem_append_left _ hb)), hne⟩
  simp only [dependsOn_ofRequests] at hbehind
  constructor
  · rintro ⟨hnodup, hmem, h⟩
    refine ⟨(List.perm_ext_iff_of_nodup hnodup (nodup_nodes_ofRequests requests)).mpr fun a => ?_,
      (hbehind hnodup hmem).mpr h⟩
    rw [hmem, mem_nodes_ofRequests]
  · rintro ⟨hperm, h⟩
    have hnodup := hperm.nodup_iff.mpr (nodup_nodes_ofRequests requests)
    have hmem (a : α) : a ∈ order ↔ .node a ∈ requests :=
      hperm.mem_iff.trans mem_nodes_ofRequests
    exact ⟨hnodup, hmem, (hbehind hnodup hmem).mp h⟩

/-! ### The least order -/

omit [BEq α] [LawfulBEq α] in
/-- What is found first in a rising list is below everything else that could have been found. -/
theorem eq_or_lt_of_find? {position : α → Nat} {p : α → Bool} {as : List α}
    (has : as.Pairwise (position · < position ·)) {a b : α} (ha : as.find? p = some a)
    (hb : b ∈ as) (hp : p b = true) : a = b ∨ position a < position b := by
  obtain ⟨-, front, rest, rfl, hfront⟩ := List.find?_eq_some_iff_append.mp ha
  rcases List.mem_append.mp hb with hb | hb
  · have hnot := hfront b hb
    rw [hp] at hnot
    cases hnot
  · rcases List.mem_cons.mp hb with rfl | hb
    · exact Or.inl rfl
    · exact Or.inr ((List.pairwise_cons.mp (List.pairwise_append.mp has).2.1).1 b hb)

/-- **No order comes before that of a sort.** Each order has to begin with a node that is ready, and
the sort takes the earliest of these. -/
theorem eq_or_lex_of_place {g : DependencyGraph α} (hself : ∀ a, g.dependsOn a a = false)
    {position : α → Nat} {remaining sorted order : List α}
    (hremaining : remaining.Pairwise (position · < position ·))
    (hplace : g.place remaining = .ok sorted) (hperm : order.Perm remaining)
    (horder : order.Pairwise fun a b => g.dependsOn a b = false) :
    order = sorted ∨ List.Lex (position · < position ·) sorted order := by
  fun_induction place g remaining generalizing sorted order with
  | case1 remaining a ha _ _ ih =>
    cases hrest : g.place (remaining.erase a) with
    | error rest => rw [hrest] at hplace; cases hplace
    | ok sorted =>
      rw [hrest] at hplace
      cases hplace
      have hmem := List.mem_of_find?_eq_some ha
      obtain ⟨b, order, rfl⟩ :=
        List.exists_cons_of_ne_nil (List.ne_nil_of_mem (hperm.mem_iff.mpr hmem))
      obtain ⟨hb, hbehind⟩ := List.pairwise_cons.mp horder
      have hready : g.isReady remaining b = true := isReady_iff.mpr fun c hc => by
        rcases List.mem_cons.mp (hperm.mem_iff.mpr hc) with rfl | hc
        · exact hself _
        · exact hb c hc
      rcases eq_or_lt_of_find? hremaining ha (hperm.mem_iff.mp List.mem_cons_self) hready with
        rfl | hlt
      · have hperm := (hperm.trans (List.perm_cons_erase hmem)).cons_inv
        exact (ih (hremaining.sublist List.erase_sublist) hrest hperm hbehind).imp
          (congrArg (a :: ·)) List.Lex.cons
      · exact Or.inr (List.Lex.rel hlt)
  | case2 remaining _ hempty =>
    cases hplace
    rw [List.isEmpty_iff.mp hempty] at hperm
    exact Or.inl hperm.eq_nil
  | case3 => cases hplace

/-! ### Looking up dependencies -/

/-- The dependencies of a node. There are none to be looked up for a node that was not added. -/
def dependencies? (g : DependencyGraph α) (node : α) : Option (List α) :=
  if g.nodes.contains node then some ((g.edges.filter (·.1 == node)).map (·.2)) else none

/-- `isReady`, by looking up the dependencies of the node. -/
def isReady? (g : DependencyGraph α) (remaining : List α) (node : α) : Option Bool := do
  let dependencies ← g.dependencies? node
  return remaining.all (!dependencies.contains ·)

/-- `isNeeded`, by looking up the dependencies of the nodes that remain, until the node is found. -/
def isNeeded? (g : DependencyGraph α) (remaining : List α) (node : α) : Option Bool :=
  remaining.anyM fun other => return (← g.dependencies? other).contains node

omit [BEq α] [LawfulBEq α] in
theorem mem_of_findM? {p : α → Option Bool} {as : List α} {a : α}
    (h : as.findM? p = some (some a)) : a ∈ as := by
  induction as with
  | nil => cases h
  | cons b as ih =>
    rw [List.findM?] at h
    obtain ⟨found, -, h⟩ := Option.bind_eq_some_iff.mp h
    cases found with
    | true =>
      cases h
      exact List.mem_cons_self
    | false => exact List.mem_cons_of_mem b (ih h)

/-- `core`, by looking up dependencies. -/
def core? (g : DependencyGraph α) (remaining : List α) : Option (List α) :=
  match h : remaining.findM? fun node => return !(← g.isNeeded? remaining node) with
  | some (some node) =>
    have := List.length_erase_of_mem (mem_of_findM? h)
    have := List.length_pos_of_mem (mem_of_findM? h)
    core? g (remaining.erase node)
  | some none => some remaining
  | none => none
termination_by remaining.length

/-- `place`, by looking up dependencies. -/
def place? (g : DependencyGraph α) (remaining : List α) : Option (Except (List α) (List α)) :=
  match h : remaining.findM? (g.isReady? remaining) with
  | some (some node) =>
    have := List.length_erase_of_mem (mem_of_findM? h)
    have := List.length_pos_of_mem (mem_of_findM? h)
    (place? g (remaining.erase node)).map fun placed => placed.map (node :: ·)
  | some none => some (if remaining.isEmpty then .ok [] else .error remaining)
  | none => none
termination_by remaining.length

/-- `sort`, by looking up dependencies. There is no answer if these cannot be looked up for some
node that the sort asks for. -/
def sort? [Ord α] (g : DependencyGraph α) : Option (Except (List α) (List α)) := do
  match ← g.place? g.nodes with
  | .ok sorted => return .ok sorted
  | .error remaining =>
    return .error ((← g.core? remaining).mergeSort fun a b => (compare a b).isLE)

omit [BEq α] [LawfulBEq α] in
theorem findM?_eq_some {p : α → Option Bool} {q : α → Bool} {as : List α}
    (h : ∀ a ∈ as, p a = some (q a)) : as.findM? p = some (as.find? q) := by
  induction as with
  | nil => rfl
  | cons a as ih =>
    obtain ⟨ha, has⟩ := List.forall_mem_cons.mp h
    rw [List.findM?, ha, List.find?_cons, Option.bind_eq_bind, Option.bind_some]
    cases q a with
    | true => rfl
    | false => exact ih has

omit [BEq α] [LawfulBEq α] in
theorem anyM_eq_some {p : α → Option Bool} {q : α → Bool} {as : List α}
    (h : ∀ a ∈ as, p a = some (q a)) : as.anyM p = some (as.any q) := by
  induction as with
  | nil => rfl
  | cons a as ih =>
    obtain ⟨ha, has⟩ := List.forall_mem_cons.mp h
    rw [List.anyM, ha, List.any_cons, Option.bind_eq_bind, Option.bind_some]
    cases q a with
    | true => rfl
    | false => exact ih has

/-- The dependencies of a node that was added can be looked up. -/
theorem exists_dependencies? {g : DependencyGraph α} {node : α} (h : node ∈ g.nodes) :
    ∃ dependencies, g.dependencies? node = some dependencies ∧
      ∀ b, dependencies.contains b = g.dependsOn node b := by
  refine ⟨_, if_pos (List.contains_iff_mem.mpr h), fun b => ?_⟩
  rw [Bool.eq_iff_iff, dependsOn, List.contains_iff_mem, List.contains_iff_mem]
  simp

theorem isReady?_eq_some {g : DependencyGraph α} {node : α} (h : node ∈ g.nodes)
    (remaining : List α) : g.isReady? remaining node = some (g.isReady remaining node) := by
  obtain ⟨dependencies, hlookup, hcontains⟩ := exists_dependencies? h
  simp only [isReady?, hlookup, isReady, ← hcontains]
  rfl

theorem isNeeded?_eq_some {g : DependencyGraph α} {remaining : List α} (h : remaining ⊆ g.nodes)
    (node : α) : g.isNeeded? remaining node = some (g.isNeeded remaining node) := by
  refine anyM_eq_some fun other hother => ?_
  obtain ⟨dependencies, hlookup, hcontains⟩ := exists_dependencies? (h hother)
  rw [hlookup, ← hcontains]
  rfl

theorem core?_of_findM? {g : DependencyGraph α} {remaining : List α} {found : Option α}
    (h : (remaining.findM? fun node => return !(← g.isNeeded? remaining node)) = some found) :
    g.core? remaining = found.elim (some remaining) fun node => g.core? (remaining.erase node) := by
  rw [core?]
  split <;> rename_i hfound <;> cases h.symm.trans hfound <;> rfl

theorem place?_of_findM? {g : DependencyGraph α} {remaining : List α} {found : Option α}
    (h : remaining.findM? (g.isReady? remaining) = some found) :
    g.place? remaining = found.elim (some (if remaining.isEmpty then .ok [] else .error remaining))
      fun node => (g.place? (remaining.erase node)).map fun placed => placed.map (node :: ·) := by
  rw [place?]
  split <;> rename_i hfound <;> cases h.symm.trans hfound <;> rfl

theorem core?_eq_some {g : DependencyGraph α} {remaining : List α} (h : remaining ⊆ g.nodes) :
    g.core? remaining = some (g.core remaining) := by
  have hfind {remaining : List α} (h : remaining ⊆ g.nodes) :
      (remaining.findM? fun node => return !(← g.isNeeded? remaining node)) =
        some (remaining.find? (!g.isNeeded remaining ·)) :=
    findM?_eq_some fun node _ => by rw [isNeeded?_eq_some h]; rfl
  fun_induction core g remaining with
  | case1 remaining node hnode _ _ ih =>
    rw [core?_of_findM? (hfind h), hnode, Option.elim_some]
    exact ih (List.Subset.trans List.erase_subset h)
  | case2 remaining hnone => rw [core?_of_findM? (hfind h), hnone, Option.elim_none]

theorem place?_eq_some {g : DependencyGraph α} {remaining : List α} (h : remaining ⊆ g.nodes) :
    g.place? remaining = some (g.place remaining) := by
  have hfind {remaining : List α} (h : remaining ⊆ g.nodes) :
      remaining.findM? (g.isReady? remaining) = some (remaining.find? (g.isReady remaining)) :=
    findM?_eq_some fun node hnode => isReady?_eq_some (h hnode) remaining
  fun_induction place g remaining with
  | case1 remaining node hnode _ _ ih =>
    rw [place?_of_findM? (hfind h), hnode, Option.elim_some,
      ih (List.Subset.trans List.erase_subset h), Option.map_some]
  | case2 remaining hnone hempty =>
    rw [place?_of_findM? (hfind h), hnone, Option.elim_none, if_pos hempty]
  | case3 remaining hnone hempty =>
    rw [place?_of_findM? (hfind h), hnone, Option.elim_none, if_neg hempty]

/-- **No look-up fails.** A sort asks for the dependencies of nodes of the graph only. -/
theorem sort?_eq_some [Ord α] (g : DependencyGraph α) : g.sort? = some g.sort := by
  rw [sort?, place?_eq_some (List.Subset.refl _), sort]
  cases hplace : g.place g.nodes with
  | ok sorted => rfl
  | error remaining =>
    have hcore := core?_eq_some (rest_sublist hplace).subset
    change (g.core? remaining >>= _) = _
    rw [hcore]
    rfl

/-! ### Sorting what was requested -/

/-- **What a sort does, for every row of requests.** It comes to an end without asking for the
dependencies of a node that was not added. It succeeds just if no node depends on itself through
recorded dependencies, and then it gives the nodes in an order that keeps to these, and of all such
orders the one that is first by the times at which the nodes were requested. -/
theorem sort_isLeast [Ord α] (requests : List (Request α)) :
    (ofRequests requests).sort? = some (ofRequests requests).sort ∧
    ((∃ sorted, (ofRequests requests).sort = .ok sorted) ↔
      ¬∃ a, Relation.TransGen (Recorded requests) a a) ∧
    ∀ sorted, (ofRequests requests).sort = .ok sorted →
      IsOrder requests sorted ∧
      ∀ order, IsOrder requests order → order = sorted ∨
        List.Lex (requestedAt requests · < requestedAt requests ·) sorted order := by
  have hself (a : α) : (ofRequests requests).dependsOn a a = false :=
    Bool.eq_false_iff.mpr fun haa => (dependsOn_ofRequests.mp haa).1 rfl
  have hnodes (a b : α) : (ofRequests requests).dependsOn a b = true →
      a ∈ (ofRequests requests).nodes := mem_nodes_of_dependsOn a b
  have hcircle := exists_sort_eq_ok_iff_not_transGen hnodes
  simp only [dependsOn_ofRequests] at hcircle
  refine ⟨sort?_eq_some _, hcircle, fun sorted hsort => ⟨?_, fun order horder => ?_⟩⟩
  · exact isOrder_iff.mpr ⟨perm_of_sort hsort, pairwise_of_sort hsort⟩
  · obtain ⟨hperm, hpairwise⟩ := isOrder_iff.mp horder
    exact eq_or_lex_of_place hself (pairwise_requestedAt_nodes requests) (place_of_sort_ok hsort)
      hperm hpairwise

/-- Addresses lie in cities, and these in countries. -/
def placesRequested : List (Request String) :=
  [.node "city", .node "address", .node "country", .dependency "city" "country",
    .dependency "address" "city"]

/-- The country is moved to the front, and nothing else is moved. -/
theorem sort_isLeast_places :
    (ofRequests placesRequested).sort = .ok ["country", "city", "address"] ∧
    (¬∃ a, Relation.TransGen (Recorded placesRequested) a a) ∧
    IsOrder placesRequested ["country", "city", "address"] ∧
    ∀ order, IsOrder placesRequested order → order = ["country", "city", "address"] ∨
      List.Lex (requestedAt placesRequested · < requestedAt placesRequested ·)
        ["country", "city", "address"] order := by
  have hsort : (ofRequests placesRequested).sort = .ok ["country", "city", "address"] := by
    decide +kernel
  obtain ⟨-, hcircle, hleast⟩ := sort_isLeast placesRequested
  obtain ⟨horder, hfirst⟩ := hleast _ hsort
  exact ⟨hsort, hcircle.mp ⟨_, hsort⟩, horder, hfirst⟩

end AdditiveSchema.DependencyGraph
