import AdditiveSchema.Declared.IndexGroup
import AdditiveSchema.Proofs.Table.NormalForm
import Mathlib.Data.List.Induction

/-!
# Keys of indices

The columns that an index names. Where a key is an expression, the name of the column is empty;
every other name is that of a column which the index was declared over.

## Main results

* `Index.mem_columns_of_mem_keys` : a key that is a column is one of the names of the index.
* `Declared.perm_flatten_groupUses` : grouping the uses of columns makes up no use and loses none.
* `Declared.mem_columns_assembleIndex` : the names of the index that a group of uses declares.
-/

namespace AdditiveSchema

namespace Index

theorem columns_foldl_addColumn (i : Index) (names : List String) :
    (names.foldl addColumn i).columns = i.columns ++ names := by
  induction names generalizing i with
  | nil => exact (List.append_nil _).symm
  | cons name names ih =>
    rw [List.foldl_cons, ih, addColumn, List.append_assoc, List.singleton_append]

theorem keysOf_concat {columns exprs : List String} (h : columns.length = exprs.length)
    (column expr : String) :
    keysOf (columns ++ [column]) (exprs ++ [expr]) =
      keysOf columns exprs ++ [if expr.isEmpty then .column column else .expr expr] := by
  induction columns generalizing exprs with
  | nil =>
    obtain rfl := List.length_eq_zero_iff.mp h.symm
    rfl
  | cons c columns ih =>
    cases exprs with
    | nil => cases h
    | cons e exprs =>
      rw [List.cons_append, List.cons_append, keysOf, keysOf, ih (Nat.succ.inj h),
        List.cons_append]

theorem mem_columns_of_mem_keysOf {columns exprs : List String} {name : String}
    (h : .column name ∈ keysOf columns exprs) : name ∈ columns := by
  fun_induction keysOf columns exprs with
  | case1 => cases h
  | case2 column columns ih =>
    rcases List.mem_cons.mp h with heq | h
    · cases heq
      exact List.mem_cons_self
    · exact List.mem_cons_of_mem column (ih h)
  | case3 column columns expr exprs ih =>
    rcases List.mem_cons.mp h with heq | h
    · split at heq
      · cases heq
        exact List.mem_cons_self
      · cases heq
    · exact List.mem_cons_of_mem column (ih h)

/-- **A key that is a column** is one of the names of the index. -/
theorem mem_columns_of_mem_keys {i : Index} {name : String} (h : .column name ∈ i.keys) :
    name ∈ i.columns :=
  mem_columns_of_mem_keysOf h

end Index

namespace Declared

/-! ### Groups of uses -/

theorem perm_flatten_modifyFirst {p : List IndexUse → Bool} {groups : List (List IndexUse)}
    (h : groups.any p = true) (u : IndexUse) :
    (modifyFirst p (· ++ [u]) groups).flatten.Perm (groups.flatten ++ [u]) := by
  induction groups with
  | nil => cases h
  | cons group groups ih =>
    rw [modifyFirst]
    split
    · rw [List.flatten_cons, List.flatten_cons, List.append_assoc, List.append_assoc]
      exact List.perm_append_comm.append_left group
    · rename_i hp
      rw [List.any_cons, Bool.eq_false_iff.mpr hp, Bool.false_or] at h
      rw [List.flatten_cons, List.flatten_cons, List.append_assoc]
      exact (ih h).append_left group

theorem perm_flatten_addUse (groups : List (List IndexUse)) (u : IndexUse) :
    (addUse groups u).flatten.Perm (groups.flatten ++ [u]) := by
  simp only [addUse]
  split
  · rename_i hjoins
    exact perm_flatten_modifyFirst hjoins u
  · rw [List.flatten_append, List.flatten_singleton]

/-- **Grouping makes up no use and loses none.** -/
theorem perm_flatten_groupUses (uses : List IndexUse) : (groupUses uses).flatten.Perm uses := by
  induction uses using List.reverseRecOn with
  | nil => exact .refl _
  | append_singleton uses u ih =>
    rw [groupUses, List.foldl_append]
    exact (perm_flatten_addUse _ u).trans (ih.append_right [u])

theorem mem_iff_mem_groupUses {uses : List IndexUse} {u : IndexUse} :
    u ∈ uses ↔ ∃ group ∈ groupUses uses, u ∈ group := by
  rw [← (perm_flatten_groupUses uses).mem_iff, List.mem_flatten]

theorem mem_of_mem_groupUses {uses group : List IndexUse} (hgroup : group ∈ groupUses uses)
    {u : IndexUse} (hu : u ∈ group) : u ∈ uses :=
  mem_iff_mem_groupUses.mpr ⟨group, hgroup, hu⟩

/-- No group is empty. -/
theorem ne_nil_of_mem_groupUses {uses group : List IndexUse} (h : group ∈ groupUses uses) :
    group ≠ [] := by
  induction uses using List.reverseRecOn generalizing group with
  | nil => cases h
  | append_singleton uses u ih =>
    rw [groupUses, List.foldl_append] at h
    simp only [List.foldl_cons, List.foldl_nil, addUse] at h
    split at h
    · rcases mem_of_mem_modifyFirst h with h | ⟨joined, -, rfl⟩
      · exact ih h
      · simp
    · rcases List.mem_append.mp h with h | h
      · exact ih h
      · rw [List.mem_singleton.mp h]
        exact List.cons_ne_nil u []

/-! ### The index of a group -/

theorem perm_sortUses (group : List IndexUse) : (sortUses group).Perm group :=
  List.mergeSort_perm _ _

theorem mem_columns_addKey {i : Index} {u : IndexUse} {name : String}
    (h : name ∈ (addKey i u).columns) : name ∈ i.columns ∨ name = "" ∨ name = u.column := by
  unfold addKey at h
  split at h
  · exact (List.mem_append.mp h).imp_right fun h => Or.inl (List.mem_singleton.mp h)
  · exact (List.mem_append.mp h).imp_right fun h => Or.inr (List.mem_singleton.mp h)

theorem mem_columns_foldl_addKey {i : Index} {group : List IndexUse} {name : String}
    (h : name ∈ (group.foldl addKey i).columns) :
    name ∈ i.columns ∨ name = "" ∨ ∃ u ∈ group, u.column = name := by
  induction group generalizing i with
  | nil => exact Or.inl h
  | cons u group ih =>
    rcases ih h with h | h | ⟨v, hv, rfl⟩
    · rcases mem_columns_addKey h with h | h | rfl
      · exact Or.inl h
      · exact Or.inr (Or.inl h)
      · exact Or.inr (Or.inr ⟨u, List.mem_cons_self, rfl⟩)
    · exact Or.inr (Or.inl h)
    · exact Or.inr (Or.inr ⟨v, List.mem_cons_of_mem u hv, rfl⟩)

/-- **The names of the index of a group** are those of the columns that the uses stand on. -/
theorem mem_columns_assembleIndex {table name : String} {group : List IndexUse}
    (h : name ∈ (assembleIndex table group).columns) :
    name = "" ∨ ∃ u ∈ group, u.column = name := by
  rcases mem_columns_foldl_addKey h with h | h | ⟨u, hu, rfl⟩
  -- without its keys, the index names no columns
  · split at h <;> cases h
  · exact Or.inl h
  · exact Or.inr ⟨u, (perm_sortUses group).mem_iff.mp hu, rfl⟩

/-- The key that a use adds to its index: an expression that is not empty, or else a column. -/
def IndexUse.key (u : IndexUse) : IndexKey :=
  match u.expr with
  | some text => if text.isEmpty then .column "" else .expr text
  | none => .column u.column

theorem keys_addKey {i : Index} (h : i.columns.length = i.exprs.length) (u : IndexUse) :
    (addKey i u).keys = i.keys ++ [u.key] := by
  unfold addKey IndexUse.key
  cases u.expr with
  | some text => exact Index.keysOf_concat h "" text
  | none => exact Index.keysOf_concat h u.column ""

theorem length_addKey {i : Index} (h : i.columns.length = i.exprs.length) (u : IndexUse) :
    (addKey i u).columns.length = (addKey i u).exprs.length := by
  unfold addKey
  split
  · simp [Index.addExpr, h]
  · simp [Index.addColumn, h]

theorem keys_foldl_addKey {i : Index} (h : i.columns.length = i.exprs.length)
    (group : List IndexUse) : (group.foldl addKey i).keys = i.keys ++ group.map IndexUse.key := by
  induction group generalizing i with
  | nil => exact (List.append_nil _).symm
  | cons u group ih =>
    rw [List.foldl_cons, ih (length_addKey h u), keys_addKey h, List.append_assoc, List.map_cons,
      List.singleton_append]

/-- **The keys of the index of a group** are those of its uses, in their order. -/
theorem keys_assembleIndex (table : String) (group : List IndexUse) :
    (assembleIndex table group).keys = (sortUses group).map IndexUse.key := by
  unfold assembleIndex
  rw [keys_foldl_addKey]
  · split <;> rfl
  · split <;> rfl

/-- Keys change nothing else of an index. -/
theorem exists_foldl_addKey (i : Index) (group : List IndexUse) :
    ∃ columns exprs, group.foldl addKey i = { i with columns := columns, exprs := exprs } := by
  induction group generalizing i with
  | nil => exact ⟨i.columns, i.exprs, rfl⟩
  | cons u group ih =>
    obtain ⟨columns, exprs, heq⟩ := ih (addKey i u)
    refine ⟨columns, exprs, heq.trans ?_⟩
    unfold addKey
    split <;> rfl

theorem name_assembleIndex (table : String) (group : List IndexUse) :
    (assembleIndex table group).name =
      table ++ "_" ++ "_".intercalate ((sortUses group).map (·.column)) ++ "_idx" := by
  simp only [assembleIndex]
  obtain ⟨columns, exprs, heq⟩ := exists_foldl_addKey _ (sortUses group)
  rw [heq]
  split <;> rfl

theorem schema_assembleIndex (table : String) (group : List IndexUse) :
    (assembleIndex table group).schema = "" := by
  simp only [assembleIndex]
  obtain ⟨columns, exprs, heq⟩ := exists_foldl_addKey _ (sortUses group)
  rw [heq]
  split <;> rfl

/-- The index of a group carries no columns beside its keys. -/
theorem carried_assembleIndex (table : String) (group : List IndexUse) :
    (assembleIndex table group).carried = [] := by
  simp only [assembleIndex]
  obtain ⟨columns, exprs, heq⟩ := exists_foldl_addKey _ (sortUses group)
  rw [heq]
  split <;> rfl

end Declared

end AdditiveSchema
