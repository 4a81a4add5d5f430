import AdditiveSchema.Except
import AdditiveSchema.Proofs.DeclaredItems

/-!
# Indices put together from columns

Each `index` modifier of a column is one key of one index. Modifiers with one label share an index,
whatever columns they stand on, and a modifier without label has an index of its own. What the
modifiers of an index say of the index as a whole is taken together: it is unique if one of them
says so, and its condition and its method are the last ones given.

Within an index, the keys with an order come first, sorted by it, then those without. The one order
that does not count is the largest word: it is taken for no order. So the keys are in the order that
was declared if and only if no key with the largest word as its order stands behind one without.

## Main definitions

* `Declared.IndexUse.IsSaidBy` : what the text of an `index` modifier says.
* `Declared.IsGrouping` : uses put together by their labels.
* `Declared.IsIndexOf` : the index of a group of uses, with its keys in a given order.
* `Declared.IsKeyOrder` : the keys of a group, sorted by the places that they were given.

## Main results

* `Declared.isGrouping_groupUses` : the groups of the uses of a table.
* `Declared.isKeyOrder_sortUses`, `Declared.isKeyOrder_order_iff` : the order of the keys.
* `DeclaredSchema.build_indexGroups_iff` : the indices that the columns of all tables declare.
-/

namespace AdditiveSchema

open Directive

/-! ### Lists -/

section Lists

variable {α : Type} {p q : α → Bool} {f : α → α} {as : List α}

/-- The change of the only element that has the property. -/
theorem filter_modifyFirst_of_eq {a : α} (h : as.filter p = [a]) (hf : p (f a) = true) :
    (modifyFirst p f as).filter p = [f a] := by
  induction as with
  | nil => cases h
  | cons b as ih =>
    rw [List.filter_cons] at h
    rw [modifyFirst]
    split at h
    · rename_i hb
      obtain ⟨rfl, hrest⟩ := List.cons.inj h
      rw [if_pos hb, List.filter_cons, if_pos hf, hrest]
    · rename_i hb
      rw [if_neg hb, List.filter_cons, if_neg hb, ih h]

/-- A change outside of a property, before and after. -/
theorem filter_modifyFirst_of_not (h : ∀ a ∈ as, p a = true → q a = false ∧ q (f a) = false) :
    (modifyFirst p f as).filter q = as.filter q := by
  induction as with
  | nil => rfl
  | cons b as ih =>
    rw [modifyFirst]
    split
    · rename_i hb
      obtain ⟨hq, hqf⟩ := h b List.mem_cons_self hb
      rw [List.filter_cons, List.filter_cons, hq, hqf, if_neg Bool.false_ne_true,
        if_neg Bool.false_ne_true]
    · rw [List.filter_cons, List.filter_cons, ih fun a ha => h a (List.mem_cons_of_mem b ha)]

end Lists

/-! ### What one modifier says -/

/-- A word fits. -/
theorem Text.le_maxWord_of_readDigits {value n : Nat} {cs : List Char} (hvalue : value ≤ maxWord)
    (h : readDigits value cs = .ok n) : n ≤ maxWord := by
  induction cs generalizing value with
  | nil =>
    cases h
    exact hvalue
  | cons c cs ih =>
    rw [readDigits] at h
    split at h
    · cases h
    · dsimp only at h
      split at h
      · cases h
      · rename_i hfits
        exact ih (Nat.le_of_not_lt hfits) h

theorem Text.le_maxWord_of_readWord {s : String} {n : Nat} (h : readWord s = .ok n) :
    n ≤ maxWord := by
  unfold readWord at h
  split at h
  · cases h
  · cases h
  · exact le_maxWord_of_readDigits (Nat.zero_le _) h
  · exact le_maxWord_of_readDigits (Nat.zero_le _) h

/-- The value of the last modifier of that name. -/
def Directive.lastValue? (name : String) (ms : List Modifier) : Option String :=
  ((ms.filter (·.name == name)).map (·.value)).getLast?

theorem Directive.lastValue?_concat (name : String) (ms : List Modifier) (m : Modifier) :
    lastValue? name (ms ++ [m]) = if m.name == name then some m.value else lastValue? name ms := by
  rw [lastValue?, List.filter_append, List.filter_singleton, List.map_append, List.getLast?_append]
  cases m.name == name <;> rfl

/-- A value that gives no issue can be read. -/
theorem Checked.exists_ok_of_ofWord {ε α : Type} {policy : ModifierPolicy} {field : String}
    {m : Modifier} {message : ε → String} {x : Except ε α}
    (h : (ofWord field m message x).IsSound policy) : ∃ a, x = .ok a := by
  cases x with
  | ok a => exact ⟨a, rfl⟩
  | error e => cases h _ List.mem_cons_self

namespace Declared

/-- The use says what the modifiers behind a label say: each of them counts, and of those with one
name the last. Every order and every method that counts can be read. -/
structure IndexUse.Says (u : IndexUse) (label : String) (ms : List Modifier) : Prop where
  label : u.label = label? label
  order : u.order.map .ok = (lastValue? "order" ms).map Text.readWord
  expr : u.expr = lastValue? "expr" ms
  unique : u.unique = ms.any (·.name == "unique")
  whereExpr : u.whereExpr = lastValue? "where" ms
  indexType : u.indexType.map .ok = (lastValue? "type" ms).map IndexType.read

/-- The use is the one that an `index` modifier with that text is on that column. -/
def IndexUse.IsSaidBy (u : IndexUse) (column text : String) : Prop :=
  u.column = column ∧ ∃ label ms, valueAndModifiers text = .ok (label, ms) ∧ u.Says label ms

variable {policy : ModifierPolicy} {field column label : String} {ms : List Modifier}

/-- **One more modifier** says one thing more. -/
theorem IndexUse.Says.step {u : IndexUse} (h : u.Says label ms) {m : Modifier}
    (hsound : (applyIndexModifier field u m).IsSound policy) :
    (applyIndexModifier field u m).value.Says label (ms ++ [m]) := by
  obtain ⟨hlabel, horder, hexpr, hunique, hwhere, htype⟩ := h
  unfold applyIndexModifier at hsound ⊢
  split at hsound
  · rename_i hname
    constructor <;> simp [lastValue?_concat, *]
  · rename_i hname
    obtain ⟨n, hn⟩ := Checked.exists_ok_of_ofWord (Checked.isSound_bind.mp hsound).1
    constructor <;> simp [lastValue?_concat, Checked.ofWord, *]
  · rename_i hname
    constructor <;> simp [lastValue?_concat, *]
  · rename_i hname
    constructor <;> simp [lastValue?_concat, *]
  · rename_i hname
    obtain ⟨t, ht⟩ := Checked.exists_ok_of_ofWord (Checked.isSound_bind.mp hsound).1
    constructor <;> simp [lastValue?_concat, Checked.ofWord, *]
  · rename_i other hunique' horder' hexpr' hwhere' htype'
    constructor <;> simp_all [lastValue?_concat]

/-- **All modifiers** behind a label say what they say one by one. -/
theorem says_foldlM
    (h : (ms.foldlM (applyIndexModifier field) { label := label? label, column }).IsSound policy) :
    (ms.foldlM (applyIndexModifier field)
      { label := label? label, column }).value.Says label ms := by
  induction ms using List.reverseRecOn with
  | nil => exact ⟨rfl, rfl, rfl, rfl, rfl, rfl⟩
  | append_singleton ms m ih =>
    rw [List.foldlM_append] at h ⊢
    obtain ⟨hfirst, hlast⟩ := Checked.isSound_bind.mp h
    exact (ih hfirst).step (Checked.isSound_bind.mp hlast).1

/-- **One `index` modifier** is one use. -/
theorem exists_isSaidBy {text : String} (h : (readIndexUse field column text).IsSound policy) :
    ∃ u, (readIndexUse field column text).value = some u ∧ u.IsSaidBy column text := by
  obtain ⟨⟨label, ms⟩, hlex⟩ := Checked.exists_ok_of_ofLexed (Checked.isSound_bind.mp h).1
  have hvalue : (readIndexUse field column text).value = some
      (ms.foldlM (applyIndexModifier field) { label := label? label, column }).value := by
    rw [readIndexUse, hlex]
    rfl
  rw [readIndexUse, hlex] at h
  have hsound := (Checked.isSound_bind.mp (Checked.isSound_bind.mp h).2).1
  exact ⟨_, hvalue, column_of_readIndexUse hvalue, label, ms, hlex, says_foldlM hsound⟩

theorem IndexUse.IsSaidBy.le_maxWord {u : IndexUse} {text : String} (h : u.IsSaidBy column text)
    {n : Nat} (hn : u.order = some n) : n ≤ Text.maxWord := by
  obtain ⟨-, label, ms, -, hsays⟩ := h
  have horder := hsays.order
  rw [hn, Option.map_some, eq_comm, Option.map_eq_some_iff] at horder
  obtain ⟨text, -, hread⟩ := horder
  exact Text.le_maxWord_of_readWord hread

/-! ### Groups -/

/-- The uses are put together by their labels: no use is lost or made up and no group is empty, the
uses of a label are one group, and each use without label is one of its own. -/
structure IsGrouping (uses : List IndexUse) (groups : List (List IndexUse)) : Prop where
  perm : groups.flatten.Perm uses
  ne_nil : ∀ group ∈ groups, group ≠ []
  labelled : ∀ label : String, groups.filter (·.any (·.label == some label)) =
    if uses.any (·.label == some label) then [uses.filter (·.label == some label)] else []
  unlabelled : groups.filter (·.any (·.label == none)) =
    (uses.filter (·.label == none)).map fun u => [u]

namespace IsGrouping

variable {uses group : List IndexUse} {groups : List (List IndexUse)} {u : IndexUse}

/-- The group of a use with a label. -/
theorem eq_filter (h : IsGrouping uses groups) (hgroup : group ∈ groups) (hu : u ∈ group)
    {label : String} (hlabel : u.label = some label) :
    group = uses.filter (·.label == some label) := by
  have hmem : group ∈ groups.filter (·.any (·.label == some label)) :=
    List.mem_filter.mpr ⟨hgroup, List.any_eq_true.mpr ⟨u, hu, beq_iff_eq.mpr hlabel⟩⟩
  rw [h.labelled] at hmem
  split at hmem
  · exact List.mem_singleton.mp hmem
  · cases hmem

/-- The group of a use without label. -/
theorem eq_singleton (h : IsGrouping uses groups) (hgroup : group ∈ groups) (hu : u ∈ group)
    (hlabel : u.label = none) : group = [u] := by
  have hmem : group ∈ groups.filter (·.any (·.label == none)) :=
    List.mem_filter.mpr ⟨hgroup, List.any_eq_true.mpr ⟨u, hu, beq_iff_eq.mpr hlabel⟩⟩
  rw [h.unlabelled] at hmem
  obtain ⟨v, -, rfl⟩ := List.mem_map.mp hmem
  rw [List.mem_singleton.mp hu]

/-- The uses of a label are a group. -/
theorem filter_mem (h : IsGrouping uses groups) (hu : u ∈ uses) {label : String}
    (hlabel : u.label = some label) : uses.filter (·.label == some label) ∈ groups := by
  have hany : uses.any (·.label == some label) = true :=
    List.any_eq_true.mpr ⟨u, hu, beq_iff_eq.mpr hlabel⟩
  have hfilter := h.labelled label
  rw [if_pos hany] at hfilter
  exact List.mem_of_mem_filter (hfilter ▸ List.mem_singleton_self _)

theorem any_any (h : IsGrouping uses groups) (p : IndexUse → Bool) :
    groups.any (·.any p) = uses.any p := by
  rw [← List.any_flatten, h.perm.any_eq]

/-- Whether a use joins a group is decided by the uses before it. -/
theorem addUse_eq (h : IsGrouping uses groups) (u : IndexUse) :
    addUse groups u =
      if u.label.isSome && uses.any (·.label == u.label) then
        modifyFirst (·.any (·.label == u.label)) (· ++ [u]) groups
      else groups ++ [[u]] := by
  unfold addUse
  cases u.label with
  | none => simp
  | some label => simp only [Option.isSome_some, Bool.true_and, h.any_any]

/-- A use that joins the group of its label leaves all other groups as they are. -/
theorem filter_modifyFirst (h : IsGrouping uses groups) {label : String}
    (hlabel : u.label = some label) {other : Option String} (hne : other ≠ some label) :
    (modifyFirst (·.any (·.label == some label)) (· ++ [u]) groups).filter
      (·.any (·.label == other)) = groups.filter (·.any (·.label == other)) := by
  refine filter_modifyFirst_of_not fun group hgroup hany => ?_
  obtain ⟨v, hv, hvlabel⟩ := List.any_eq_true.mp hany
  have hall : ∀ w ∈ group, w.label = some label := by
    intro w hw
    rw [h.eq_filter hgroup hv (eq_of_beq hvlabel)] at hw
    exact eq_of_beq (List.mem_filter.mp hw).2
  have hnot : group.any (·.label == other) = false :=
    List.any_eq_false.mpr fun w hw => by rw [hall w hw, beq_iff_eq]; exact hne.symm
  refine ⟨hnot, ?_⟩
  rw [List.any_append, hnot, List.any_cons, hlabel, List.any_nil, Bool.or_false, Bool.false_or]
  exact beq_eq_false_iff_ne.mpr hne.symm

/-- **One more use** joins the group of its label, or else makes up a new group. -/
theorem step (h : IsGrouping uses groups) (u : IndexUse) :
    IsGrouping (uses ++ [u]) (addUse groups u) := by
  have hperm := (perm_flatten_addUse groups u).trans (h.perm.append_right [u])
  rw [h.addUse_eq] at hperm ⊢
  split at hperm
  · rename_i hjoins
    obtain ⟨hsome, hany⟩ := Bool.and_eq_true_iff.mp hjoins
    obtain ⟨label, hlabel⟩ := Option.isSome_iff_exists.mp hsome
    rw [hlabel] at hany hperm
    rw [if_pos hjoins, hlabel]
    have hjoined := h.labelled label
    rw [if_pos hany] at hjoined
    refine ⟨hperm, fun group hgroup => ?_, fun other => ?_, ?_⟩
    · rcases mem_of_mem_modifyFirst hgroup with hgroup | ⟨joined, -, rfl⟩
      · exact h.ne_nil group hgroup
      · exact List.append_ne_nil_of_right_ne_nil joined (List.cons_ne_nil u [])
    · by_cases heq : other = label
      · subst heq
        rw [filter_modifyFirst_of_eq hjoined (by simp [hlabel])]
        simp [hlabel]
      · have hne : (some other : Option String) ≠ some label := fun h => heq (Option.some.inj h)
        rw [h.filter_modifyFirst hlabel hne, h.labelled]
        simp [hlabel, Ne.symm heq]
    · rw [h.filter_modifyFirst hlabel (Option.some_ne_none label).symm, h.unlabelled]
      simp [hlabel]
  · rename_i hjoins
    rw [if_neg hjoins]
    refine ⟨hperm, fun group hgroup => ?_, fun label => ?_, ?_⟩
    · rcases List.mem_append.mp hgroup with hgroup | hgroup
      · exact h.ne_nil group hgroup
      · rw [List.mem_singleton.mp hgroup]
        exact List.cons_ne_nil u []
    · rw [List.filter_append, h.labelled]
      by_cases hlabel : u.label = some label
      · have hnew : uses.any (·.label == some label) = false := by
          simpa only [hlabel, Option.isSome_some, Bool.true_and, Bool.not_eq_true] using hjoins
        have hnil : uses.filter (·.label == some label) = [] :=
          List.filter_eq_nil_iff.mpr (List.any_eq_false.mp hnew)
        rw [hnew, if_neg Bool.false_ne_true, List.filter_append, hnil]
        simp [hlabel]
      · simp [hlabel]
    · rw [List.filter_append, h.unlabelled]
      cases hlabel : u.label with
      | none => simp [hlabel]
      | some label => simp [hlabel]

end IsGrouping

/-- **The groups of the uses of a table.** -/
theorem isGrouping_groupUses (uses : List IndexUse) : IsGrouping uses (groupUses uses) := by
  induction uses using List.reverseRecOn with
  | nil => exact ⟨.refl _, nofun, fun _ => rfl, rfl⟩
  | append_singleton uses u ih =>
    rw [groupUses, List.foldl_append]
    exact ih.step u

/-! ### The index of a group -/

/-- The index is that of the group, with one key for each use in the order of the row. It is named
after the table and the columns that the uses stand on, it is unique if one of the uses says so, and
its condition and its method are the last ones that the group gives. -/
structure IsIndexOf (table : String) (group row : List IndexUse) (i : Index) : Prop where
  name : i.name = table ++ "_" ++ "_".intercalate (row.map (·.column)) ++ "_idx"
  keys : i.keys = row.map IndexUse.key
  unique : i.unique = group.any (·.unique)
  whereExpr : i.whereExpr = (group.filterMap (·.whereExpr)).getLast?
  isPartial : i.isPartial = i.whereExpr.isSome
  indexType : i.indexType = ((group.filterMap (·.indexType)).getLast?).getD .btree

theorem isIndexOf_assembleIndex (table : String) (group : List IndexUse) :
    IsIndexOf table group (sortUses group) (assembleIndex table group) := by
  have hname := name_assembleIndex table group
  have hkeys := keys_assembleIndex table group
  unfold assembleIndex at hname hkeys ⊢
  obtain ⟨columns, exprs, heq⟩ := exists_foldl_addKey _ (sortUses group)
  dsimp only at hname hkeys ⊢
  rw [heq] at hname hkeys ⊢
  cases hwhere : (group.filterMap (·.whereExpr)).getLast? with
  | none =>
    rw [hwhere] at hname hkeys
    exact ⟨hname, hkeys, rfl, hwhere.symm, rfl, rfl⟩
  | some condition =>
    rw [hwhere] at hname hkeys
    exact ⟨hname, hkeys, rfl, hwhere.symm, rfl, rfl⟩

/-! ### The order of the keys -/

/-- The row holds the uses of the group by the places that they are given: those with a place come
first, sorted by it, then those without, and uses of one place keep their order. -/
structure IsKeyOrder (place : IndexUse → Option Nat) (group row : List IndexUse) : Prop where
  sorted : row.Pairwise fun u v => ∀ m ∈ place u, ∀ n ∈ place v, m ≤ n
  placedFirst : row.Pairwise fun u v => place u = none → place v = none
  stable : ∀ p, row.filter (place · == p) = group.filter (place · == p)

/-- The place that counts: the largest word is none. -/
def IndexUse.place (u : IndexUse) : Option Nat :=
  u.order.filter (· ≠ Text.maxWord)

namespace IndexUse

variable {u : IndexUse}

theorem rank_eq (u : IndexUse) : u.rank = u.place.getD Text.maxWord := by
  unfold rank place
  cases u.order with
  | none => rfl
  | some n =>
    by_cases hn : n = Text.maxWord
    · simp [hn, Option.filter_some]
    · simp [hn, Option.filter_some]

theorem place_of_order_eq_none (h : u.order = none) : u.place = none := by
  rw [place, h]
  rfl

theorem place_of_order_eq_maxWord (h : u.order = some Text.maxWord) : u.place = none := by
  simp [place, h]

theorem place_of_order_eq_some {n : Nat} (h : u.order = some n) (hn : n ≠ Text.maxWord) :
    u.place = some n := by
  simp [place, h, hn]

theorem place_eq_none_iff : u.place = none ↔ u.order = none ∨ u.order = some Text.maxWord := by
  unfold place
  cases u.order <;> simp

theorem lt_maxWord_of_mem_place (h : ∀ n ∈ u.order, n ≤ Text.maxWord) {n : Nat}
    (hn : n ∈ u.place) : n < Text.maxWord := by
  obtain ⟨hmem, hne⟩ := Option.filter_eq_some_iff.mp hn
  exact Nat.lt_of_le_of_ne (h n hmem) (of_decide_eq_true hne)

end IndexUse

section KeyOrder

variable {group row : List IndexUse}

theorem pairwise_sortUses (group : List IndexUse) :
    (sortUses group).Pairwise fun u v => u.rank ≤ v.rank :=
  pairwise_mergeSort_le IndexUse.rank group

theorem sortUses_eq_self (h : group.Pairwise fun u v => u.rank ≤ v.rank) :
    sortUses group = group :=
  List.mergeSort_of_pairwise (h.imp decide_eq_true)

/-- Uses of different ranks have only one order. -/
theorem sortUses_eq (hperm : row.Perm group) (hrow : row.Pairwise fun u v => u.rank < v.rank) :
    sortUses group = row := by
  have hranks : (row.map IndexUse.rank).Nodup :=
    List.pairwise_map.mpr (hrow.imp Nat.ne_of_lt)
  refine ((perm_sortUses group).trans hperm.symm).eq_of_pairwise (fun u v hu hv huv hvu => ?_)
    (pairwise_sortUses group) (hrow.imp Nat.le_of_lt)
  have hu := hperm.mem_iff.mpr ((perm_sortUses group).mem_iff.mp hu)
  exact List.inj_on_of_nodup_map hranks hu hv (Nat.le_antisymm huv hvu)

/-- **The order of the keys** is that of the places that count. -/
theorem isKeyOrder_sortUses (hbound : ∀ u ∈ group, ∀ n ∈ u.order, n ≤ Text.maxWord) :
    IsKeyOrder IndexUse.place group (sortUses group) where
  sorted := by
    refine (pairwise_sortUses group).imp fun {u v} hrank m hm n hn => ?_
    rwa [u.rank_eq, v.rank_eq, hm, hn] at hrank
  placedFirst := by
    refine (pairwise_sortUses group).imp_of_mem fun {u v} hu hv hrank hnone => ?_
    rw [u.rank_eq, v.rank_eq, hnone] at hrank
    by_contra hplace
    obtain ⟨n, hn⟩ := Option.ne_none_iff_exists'.mp hplace
    rw [hn] at hrank
    have hlt := IndexUse.lt_maxWord_of_mem_place
      (hbound v ((perm_sortUses group).mem_iff.mp hv)) hn
    exact absurd hrank (Nat.not_le_of_lt hlt)
  stable p := filter_mergeSort_le IndexUse.rank (fun u v hu hv => by
    rw [u.rank_eq, v.rank_eq, eq_of_beq hu, eq_of_beq hv]) group

/-- Two uses of one place stand in the row as they stand in the group. -/
theorem IsKeyOrder.pair_sublist_iff {place : IndexUse → Option Nat}
    (h : IsKeyOrder place group row) {u v : IndexUse} (hplace : place u = place v) :
    [u, v].Sublist row ↔ [u, v].Sublist group := by
  have hfilter (uses : List IndexUse) :
      [u, v].Sublist uses ↔ [u, v].Sublist (uses.filter (place · == place v)) := by
    constructor
    · intro hsub
      simpa [hplace] using hsub.filter (place · == place v)
    · exact fun hsub => hsub.trans List.filter_sublist
  rw [hfilter row, hfilter group, h.stable]

/-- **The order that was declared** is the order of the keys if and only if no use of the largest
word stands behind one without order. -/
theorem isKeyOrder_order_iff (hbound : ∀ u ∈ group, ∀ n ∈ u.order, n ≤ Text.maxWord)
    (h : IsKeyOrder IndexUse.place group row) (hperm : row.Perm group) :
    IsKeyOrder (·.order) group row ↔
      group.Pairwise fun u v => u.order = none → v.order ≠ some Text.maxWord := by
  constructor
  · intro horder
    refine List.pairwise_iff_forall_sublist.mpr fun {u v} hsub hnone hmax => ?_
    have hplace : u.place = v.place := by
      rw [IndexUse.place_of_order_eq_none hnone, IndexUse.place_of_order_eq_maxWord hmax]
    have hrow := (h.pair_sublist_iff hplace).mpr hsub
    have hlast := List.pairwise_iff_forall_sublist.mp horder.placedFirst hrow hnone
    exact Option.some_ne_none _ (hmax.symm.trans hlast)
  · intro hgroup
    refine ⟨?_, ?_, ?_⟩
    · refine (h.sorted.and h.placedFirst).imp_of_mem fun {u v} hu hv huv m hm n hn => ?_
      by_cases hnmax : n = Text.maxWord
      · exact hnmax ▸ hbound u (hperm.mem_iff.mp hu) m hm
      · have hplace := IndexUse.place_of_order_eq_some hn hnmax
        by_cases hmmax : m = Text.maxWord
        · have hnone := huv.2 (IndexUse.place_of_order_eq_maxWord (hmmax ▸ hm))
          exact absurd (hplace.symm.trans hnone) (Option.some_ne_none n)
        · exact huv.1 m (IndexUse.place_of_order_eq_some hm hmmax) n hplace
    · refine List.pairwise_iff_forall_sublist.mpr fun {u v} hsub hnone => ?_
      have hu := IndexUse.place_of_order_eq_none hnone
      have hv := List.pairwise_iff_forall_sublist.mp h.placedFirst hsub hu
      refine (IndexUse.place_eq_none_iff.mp hv).resolve_right fun hmax => ?_
      have hsub := (h.pair_sublist_iff (hu.trans hv.symm)).mp hsub
      exact List.pairwise_iff_forall_sublist.mp hgroup hsub hnone hmax
    · intro p
      -- uses of one order have one place, and among these the order is kept
      have hfilter (uses : List IndexUse) : uses.filter (·.order == p) =
          (uses.filter (·.place == p.filter (· ≠ Text.maxWord))).filter (·.order == p) := by
        rw [List.filter_filter]
        refine List.filter_congr fun u _ => ?_
        by_cases hp : u.order = p
        · simp [hp, IndexUse.place]
        · simp [hp]
      rw [hfilter row, hfilter group, h.stable]

end KeyOrder

end Declared

/-! ### The indices of a definition -/

namespace TableDef

variable (declared : TableDef) (d : Dialect)

/-- The `index` modifiers of the columns that the table has in the dialect, each with the name of
its column. -/
def indexModifiersIn : List (String × String) :=
  (declared.columnsIn d).flatMap fun c =>
    (c.values "index").map fun value => (c.columnName, value)

/-- The groups of uses that are put together to the indices of the columns. -/
def indexGroupsIn : List (List Declared.IndexUse) :=
  Declared.groupUses (declared.usesIn d)

/-- **What the columns declare.** Each of their modifiers is one use, the uses are put together by
their labels, and each group of uses is one index of the table, with its keys by the places that
count. All other indices are declared by the table itself. -/
structure PutsTogether (t : Table) : Prop where
  uses : List.Forall₂ (fun m u => u.IsSaidBy m.1 m.2) (declared.indexModifiersIn d)
    (declared.usesIn d)
  grouping : Declared.IsGrouping (declared.usesIn d) (declared.indexGroupsIn d)
  indices : ∃ indices, t.indices = indices ++ declared.tableIndicesIn d ∧
    List.Forall₂ (fun group i => Declared.IsIndexOf t.name group (Declared.sortUses group) i)
      (declared.indexGroupsIn d) indices
  keyOrder : ∀ group ∈ declared.indexGroupsIn d, (Declared.sortUses group).Perm group ∧
    Declared.IsKeyOrder Declared.IndexUse.place group (Declared.sortUses group)

/-- In each index, the keys are in the order that was declared. -/
def OrdersKeys : Prop :=
  ∀ group ∈ declared.indexGroupsIn d,
    Declared.IsKeyOrder (·.order) group (Declared.sortUses group)

/-- No modifier with the largest word as its order stands behind one with the same label and without
order. -/
def AvoidsLargestOrder : Prop :=
  (declared.usesIn d).Pairwise fun u v =>
    u.label.isSome → u.label = v.label → u.order = none → v.order ≠ some Text.maxWord

end TableDef

namespace Declared

variable {policy : ModifierPolicy} {d : Dialect} {declared : TableDef}

/-- **The modifiers of a definition** are its uses, one by one. -/
theorem forall₂_usesIn (h : (readTable d declared).IsSound policy) :
    List.Forall₂ (fun m u => u.IsSaidBy m.1 m.2) (declared.indexModifiersIn d)
      (declared.usesIn d) := by
  obtain ⟨hcolumns, -⟩ := exists_adds_readTable h
  refine forall₂_flatMap fun c hc => ?_
  obtain ⟨hmem, homits⟩ := TableDef.mem_columnsIn.mp hc
  have hread := Checked.isSound_mapM.mp hcolumns c hmem
  obtain ⟨ms, hms⟩ := Checked.exists_ok_of_ofLexed (Checked.isSound_bind.mp hread).1
  rw [readColumn_of_not_omits hms homits] at hread
  have huses := (Checked.isSound_bind.mp (Checked.isSound_bind.mp hread).2).1
  rw [indexed_draftColumn, name_draftColumn] at huses
  rw [List.forall₂_map_left_iff]
  exact forall₂_filterMap fun value hvalue =>
    exists_isSaidBy (Checked.isSound_mapM.mp huses value hvalue)

/-- No order is larger than the largest word. -/
theorem order_le_of_mem_usesIn (h : (readTable d declared).IsSound policy) {u : IndexUse}
    (hu : u ∈ declared.usesIn d) : ∀ n ∈ u.order, n ≤ Text.maxWord := by
  obtain ⟨m, -, hsays⟩ := exists_of_forall₂_right (forall₂_usesIn h) hu
  exact fun n hn => hsays.le_maxWord hn

end Declared

/-- The largest word is looked for in the uses of one label, and a use without label is alone. -/
theorem TableDef.avoidsLargestOrder_iff {declared : TableDef} {d : Dialect} :
    declared.AvoidsLargestOrder d ↔ ∀ group ∈ declared.indexGroupsIn d,
      group.Pairwise fun u v => u.order = none → v.order ≠ some Text.maxWord := by
  have hgrouping : Declared.IsGrouping (declared.usesIn d) (declared.indexGroupsIn d) :=
    Declared.isGrouping_groupUses _
  constructor
  · intro h group hgroup
    obtain ⟨u, hu⟩ := List.exists_mem_of_ne_nil group (hgrouping.ne_nil group hgroup)
    cases hlabel : u.label with
    | none =>
      rw [hgrouping.eq_singleton hgroup hu hlabel]
      exact List.pairwise_singleton _ u
    | some label =>
      rw [hgrouping.eq_filter hgroup hu hlabel, List.pairwise_filter]
      refine h.imp fun {v w} hvw hv hw => ?_
      have hvlabel := eq_of_beq hv
      exact hvw (by rw [hvlabel]; rfl) (hvlabel.trans (eq_of_beq hw).symm)
  · intro h
    refine List.pairwise_iff_forall_sublist.mpr fun {u v} hsub hsome heq => ?_
    obtain ⟨label, hlabel⟩ := Option.isSome_iff_exists.mp hsome
    have hgroup := hgrouping.filter_mem (hsub.subset List.mem_cons_self) hlabel
    have hfilter := hsub.filter (·.label == some label)
    rw [List.filter_cons_of_pos (by simp [hlabel]),
      List.filter_cons_of_pos (by simp [← heq, hlabel]), List.filter_nil] at hfilter
    exact List.pairwise_iff_forall_sublist.mp (h _ hgroup) hfilter

namespace DeclaredSchema

variable {d : Dialect} {policy : ModifierPolicy} {definitions : List TableDef} {s : DeclaredSchema}

/-! ### All definitions -/

/-- **The indices that columns declare.** In each table of a declared schema, every `index` modifier
of a column is one key of one index: modifiers with one label share an index, the others have one of
their own, and an index is unique if one of its modifiers says so and has the last condition and
method that they give. The keys stand by their orders, those of one order and those without in the
order of their declarations, except that the largest word is taken for no order. So they are in the
order that was declared if and only if no modifier with the largest word as its order stands behind
one of the same label without order. -/
theorem build_indexGroups_iff (h : build d policy definitions = .ok s) :
    List.Forall₂ (fun declared t => declared.PutsTogether d t ∧
      (declared.OrdersKeys d ↔ declared.AvoidsLargestOrder d)) (kept d definitions) s.tables := by
  obtain ⟨added, htables, hall⟩ := forall₂_readsAs_of_build h
  rw [htables, List.forall₂_map_right_iff]
  refine hall.imp fun declared t hreads => ?_
  have hdeclares : declared.Declares d (Declared.link added t) := declares_link hreads.declares
  have hperm (group : List Declared.IndexUse) := Declared.perm_sortUses group
  have hbound : ∀ group ∈ declared.indexGroupsIn d, ∀ u ∈ group, ∀ n ∈ u.order,
      n ≤ Text.maxWord := fun group hgroup u hu =>
    Declared.order_le_of_mem_usesIn hreads.isSound (Declared.mem_of_mem_groupUses hgroup hu)
  refine ⟨⟨Declared.forall₂_usesIn hreads.isSound, Declared.isGrouping_groupUses _,
    ⟨_, hdeclares.indices, ?_⟩, fun group hgroup => ⟨hperm group,
      Declared.isKeyOrder_sortUses (hbound group hgroup)⟩⟩, ?_⟩
  · rw [TableDef.indexGroupsIn, List.forall₂_map_right_iff, List.forall₂_same, hdeclares.name]
    exact fun group _ => Declared.isIndexOf_assembleIndex declared.tableName group
  · rw [TableDef.avoidsLargestOrder_iff]
    exact forall₂_congr fun group hgroup => Declared.isKeyOrder_order_iff (hbound group hgroup)
      (Declared.isKeyOrder_sortUses (hbound group hgroup)) (hperm group)

end DeclaredSchema

/-- The store, the mail and the name of a customer share an index, the mail before the store and the
name last, and the mail and the lower case of the name have indices of their own. -/
def sortedCustomer : TableDef where
  name := "customer"
  columns := [
    { field := "store_id", kind := .number, directive := "index=\x7b1 order=2\x7d" },
    { field := "email", kind := .string, directive := "index=\x7b1 order=1 unique\x7d index" },
    { field := "name", kind := .string,
      directive := "index=1 index=\x7b. expr=lower(name) where=active\x7d" }]

/-- No order is as large as the largest word, so the keys are in the order that was declared. -/
theorem build_indexGroups_iff_customer :
    ∃ s, DeclaredSchema.build .postgres .warn [sortedCustomer] = .ok s ∧
      s.tables.map (·.indices.map fun i => (i.name, i.unique, i.whereExpr, i.keys)) = [[
        ("customer_email_store_id_name_idx", true, none,
          [.column "email", .column "store_id", .column "name"]),
        ("customer_email_idx", false, none, [.column "email"]),
        ("customer_name_idx", false, some "active", [.expr "lower(name)"])]] ∧
      sortedCustomer.OrdersKeys .postgres ∧
      List.Forall₂ (·.PutsTogether .postgres ·) [sortedCustomer] s.tables := by
  obtain ⟨s, hbuild⟩ : ∃ s, DeclaredSchema.build .postgres .warn [sortedCustomer] = .ok s :=
    Except.isOk_iff.mp (by decide +kernel)
  have hkept : DeclaredSchema.kept .postgres [sortedCustomer] = [sortedCustomer] := rfl
  obtain ⟨customer, htables, hdeclares⟩ := DeclaredSchema.exists_declares_of_kept hkept hbuild
  let store : Declared.IndexUse := { label := some "1", column := "store_id", order := some 2 }
  let email : Declared.IndexUse :=
    { label := some "1", column := "email", order := some 1, unique := true }
  let name : Declared.IndexUse := { label := some "1", column := "name" }
  have hgroups : Declared.groupUses (sortedCustomer.usesIn .postgres) =
      [[store, email, name], [{ label := none, column := "email" }],
        [{ label := none, column := "name", expr := some "lower(name)",
           whereExpr := some "active" }]] := by
    decide +kernel
  have hsorted : Declared.sortUses [store, email, name] = [email, store, name] :=
    Declared.sortUses_eq (by decide) (by decide +kernel)
  have hindices : s.tables.map
      (·.indices.map fun i => (i.name, i.unique, i.whereExpr, i.keys)) = [[
        ("customer_email_store_id_name_idx", true, none,
          [.column "email", .column "store_id", .column "name"]),
        ("customer_email_idx", false, none, [.column "email"]),
        ("customer_name_idx", false, some "active", [.expr "lower(name)"])]] := by
    rw [htables, List.map_singleton, hdeclares.indices, TableDef.indicesIn, hgroups]
    simp only [List.map_cons, Declared.assembleIndex, hsorted]
    decide +kernel
  have hall := hkept ▸ DeclaredSchema.build_indexGroups_iff hbuild
  have horders : (sortedCustomer.usesIn .postgres).map (·.order) =
      [some 2, some 1, none, none, none] := by decide +kernel
  have havoids : sortedCustomer.AvoidsLargestOrder .postgres := by
    refine List.Pairwise.of_map (fun u : Declared.IndexUse => u.order) (fun u v hv _ _ _ => hv)
      (S := fun _ order => order ≠ some Text.maxWord) ?_
    rw [horders]
    decide
  obtain ⟨t, -, hfirst⟩ := exists_of_forall₂_left hall List.mem_cons_self
  exact ⟨s, hbuild, hindices, hfirst.2.mpr havoids, hall.imp fun _ _ h => h.1⟩

/-- The mail of a customer is given the largest of all orders in an index with the store. -/
def lastCustomer : TableDef where
  name := "customer"
  columns := [
    { field := "store_id", kind := .number, directive := "index=1" },
    { field := "email", kind := .string,
      directive := "index=\x7b1 order=18446744073709551615\x7d" }]

/-- **The largest word is taken for no order.** The mail has an order and the store has none, but
the store is the first key of the index. -/
theorem build_missesOrder_customer :
    ∃ s, DeclaredSchema.build .postgres .warn [lastCustomer] = .ok s ∧
      (lastCustomer.usesIn .postgres).map (fun u => (u.label, u.column, u.order)) =
        [(some "1", "store_id", none), (some "1", "email", some 18446744073709551615)] ∧
      s.tables.map (·.indices.map fun i => (i.name, i.keys)) = [[
        ("customer_store_id_email_idx", [.column "store_id", .column "email"])]] ∧
      ¬lastCustomer.OrdersKeys .postgres := by
  obtain ⟨s, hbuild⟩ : ∃ s, DeclaredSchema.build .postgres .warn [lastCustomer] = .ok s :=
    Except.isOk_iff.mp (by decide +kernel)
  have hkept : DeclaredSchema.kept .postgres [lastCustomer] = [lastCustomer] := rfl
  obtain ⟨customer, htables, hdeclares⟩ := DeclaredSchema.exists_declares_of_kept hkept hbuild
  have huses : lastCustomer.usesIn .postgres = [
      { label := some "1", column := "store_id" },
      { label := some "1", column := "email", order := some Text.maxWord }] := by
    decide +kernel
  have hgroups : Declared.groupUses (lastCustomer.usesIn .postgres) =
      [lastCustomer.usesIn .postgres] := by
    rw [huses]
    rfl
  have hrow :
      Declared.sortUses (lastCustomer.usesIn .postgres) = lastCustomer.usesIn .postgres :=
    Declared.sortUses_eq_self (by decide +kernel)
  refine ⟨s, hbuild, by decide +kernel, ?_, fun horders => ?_⟩
  · rw [htables, List.map_singleton, hdeclares.indices, TableDef.indicesIn, hgroups]
    simp only [List.map_cons, Declared.assembleIndex, hrow]
    decide +kernel
  have hfirst := (horders _ (hgroups ▸ List.mem_singleton_self _)).placedFirst
  rw [hrow, huses] at hfirst
  exact Option.some_ne_none _ ((List.pairwise_cons.mp hfirst).1 _ (List.mem_singleton_self _) rfl)

end AdditiveSchema
