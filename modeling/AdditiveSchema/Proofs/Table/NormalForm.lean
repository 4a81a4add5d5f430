import AdditiveSchema.Table
import Mathlib.Data.List.Nodup

/-!
# Normal forms of tables

Filling in schemas and folding keys bring a table to a form that neither operation changes again.
A constraint that never folds, whatever columns its table has, stays a constraint when the table
gains columns; a constraint that names only columns of its table either folds at once or never.

## Main definitions

* `Table.NeverFolds` : no set of columns turns the constraint into a flag.
* `Table.ConstrainsOwnColumns` : the constraints of a table name only columns of it.

## Main results

* `Table.resolve_resolve` : schemas are filled in once.
* `Table.resolve_eq_self_iff` : when all schemas of a table are filled in.
* `Table.foldKeys_eq_self` : a table whose constraints never fold is in normal form.
* `Table.foldKeys_foldKeys` : keys are folded once.
* `Table.neverFolds_of_own` : a constraint over own columns that does not fold at once never folds.
-/

namespace AdditiveSchema

/-! ### Filling in schemas -/

namespace QualifiedName

@[simp] theorem name_resolve (d : String) (n : QualifiedName) : (n.resolve d).name = n.name := by
  unfold resolve
  split <;> rfl

theorem mk_schema_resolve (d : String) (n : QualifiedName) :
    (⟨(n.resolve d).schema, n.name⟩ : QualifiedName) = n.resolve d :=
  congrArg (QualifiedName.mk (n.resolve d).schema) (name_resolve d n).symm

@[simp] theorem resolve_resolve_self (d : String) (n : QualifiedName) :
    (n.resolve d).resolve d = n.resolve d := by
  by_cases hd : d = ""
  · subst hd
    unfold resolve
    split <;> simp_all
  · exact resolve_resolve d d n hd

/-- Two defaults lead to the same name just if the name has a schema or they are the same. -/
theorem resolve_eq_resolve_iff {d e : String} {n : QualifiedName} :
    n.resolve d = n.resolve e ↔ (n.schema = "" → d = e) := by
  cases n with
  | mk schema name =>
    by_cases h : schema = "" <;> simp [resolve, h]

theorem schema_resolve_eq_iff {d : String} {n : QualifiedName} :
    (n.resolve d).schema = d ↔ n.schema = "" ∨ n.schema = d := by
  cases n with
  | mk schema name =>
    by_cases h : schema = "" <;> simp [resolve, h]

/-- Two names become one just if they are the same, or one of them has the default schema and the
other leaves it out. -/
theorem resolve_inj_iff {d : String} {n m : QualifiedName} :
    n.resolve d = m.resolve d ↔ n = m ∨
      n.name = m.name ∧ (n.schema = "" ∧ m.schema = d ∨ m.schema = "" ∧ n.schema = d) := by
  obtain ⟨schema, name⟩ := n
  obtain ⟨schema', name'⟩ := m
  by_cases h : schema = "" <;> by_cases h' : schema' = "" <;> simp [resolve, h, h'] <;> grind

end QualifiedName

namespace Table

@[simp] theorem qualifiedName_resolve (d : String) (t : Table) :
    (t.resolve d).qualifiedName = t.qualifiedName.resolve d :=
  QualifiedName.mk_schema_resolve d t.qualifiedName

@[simp] theorem name_resolve (d : String) (t : Table) : (t.resolve d).name = t.name := rfl

@[simp] theorem map_name_columns_resolve (d : String) (t : Table) :
    (t.resolve d).columns.map (·.name) = t.columns.map (·.name) := by
  simp [resolve, Function.comp_def, resolveReference]

@[simp] theorem resolveReference_resolveReference (schema : String) (c : Column) :
    resolveReference schema (resolveReference schema c) = resolveReference schema c := by
  simp [resolveReference, Function.comp_def]

/-- All schemas of a table are filled in: its own, those of its indices and those of its foreign
keys. -/
theorem resolve_eq_self_iff {d : String} {t : Table} :
    t.resolve d = t ↔ t.qualifiedName.resolve d = t.qualifiedName ∧
      (∀ i ∈ t.indices, i.nameIn t.schema = i.qualifiedName) ∧
      ∀ c ∈ t.columns, resolveReference t.schema c = c := by
  have hname : t.qualifiedName.resolve d = t.qualifiedName ↔
      (t.qualifiedName.resolve d).schema = t.schema := by
    refine ⟨fun h => by rw [h]; rfl, fun h => ?_⟩
    rw [← qualifiedName_resolve]
    exact congrArg (fun s => (⟨s, t.name⟩ : QualifiedName)) h
  have hindex (i : Index) : { i with schema := (i.nameIn t.schema).schema } = i ↔
      i.nameIn t.schema = i.qualifiedName := by
    refine ⟨fun h => ?_, fun h => by rw [h]; rfl⟩
    have h' : (i.nameIn t.schema).schema = i.schema := congrArg Index.schema h
    rw [Index.nameIn, ← QualifiedName.mk_schema_resolve]
    exact congrArg (fun s => (⟨s, i.name⟩ : QualifiedName)) h'
  rw [hname]
  constructor
  · intro h
    have hs : (t.qualifiedName.resolve d).schema = t.schema := congrArg Table.schema h
    refine ⟨hs, fun i hi => (hindex i).mp ?_, ?_⟩
    · have := congrArg Table.indices h
      simp only [resolve, hs] at this
      exact List.map_inj_left.mp (this.trans (List.map_id _).symm) i hi
    · have := congrArg Table.columns h
      simp only [resolve, hs] at this
      exact List.map_inj_left.mp (this.trans (List.map_id _).symm)
  · rintro ⟨hs, hi, hc⟩
    have hi' : t.indices.map (fun i => { i with schema := (i.nameIn t.schema).schema }) =
        t.indices := (List.map_congr_left fun i h => (hindex i).mpr (hi i h)).trans (List.map_id _)
    have hc' : t.columns.map (resolveReference t.schema) = t.columns :=
      (List.map_congr_left hc).trans (List.map_id _)
    simp only [resolve, hs, hi', hc']

/-- **Schemas are filled in once.** -/
@[simp] theorem resolve_resolve (d : String) (t : Table) :
    (t.resolve d).resolve d = t.resolve d := by
  refine resolve_eq_self_iff.mpr ⟨by simp, ?_, ?_⟩
  · intro i hi
    obtain ⟨j, -, rfl⟩ := List.mem_map.mp hi
    have hj : (⟨(j.nameIn (t.qualifiedName.resolve d).schema).schema, j.name⟩ : QualifiedName) =
        j.qualifiedName.resolve (t.qualifiedName.resolve d).schema :=
      QualifiedName.mk_schema_resolve _ _
    simp only [Index.nameIn, Index.qualifiedName, resolve] at hj ⊢
    rw [hj, QualifiedName.resolve_resolve_self]
  · intro c hc
    obtain ⟨e, -, rfl⟩ := List.mem_map.mp hc
    exact resolveReference_resolveReference _ e

theorem resolveReference_eq_self_iff {schema : String} {c : Column} :
    resolveReference schema c = c ↔
      ∀ fk, c.references = some fk → fk.table.resolve schema = fk.table := by
  obtain ⟨name, _, _, _, _, _, _, _, _, _, references, _⟩ := c
  cases references with
  | none => simp [resolveReference]
  | some fk =>
    refine ⟨fun h _ hfk => ?_, fun h => ?_⟩
    · cases hfk
      exact congrArg ForeignKey.table (Option.some.inj (congrArg Column.references h))
    · simp only [resolveReference, Option.map_some, h fk rfl]

end Table

/-! ### Changes of the first column of a name -/

theorem map_modifyFirst {α β : Type} {g : α → β} {f : α → α} (hg : ∀ a, g (f a) = g a)
    (p : α → Bool) (as : List α) : (modifyFirst p f as).map g = as.map g := by
  induction as with
  | nil => rfl
  | cons a as ih =>
    simp only [modifyFirst]
    split
    · simp only [List.map_cons, hg]
    · simp only [List.map_cons, ih]

theorem mem_of_mem_modifyFirst {α : Type} {p : α → Bool} {f : α → α} {as : List α} {a : α}
    (h : a ∈ modifyFirst p f as) : a ∈ as ∨ ∃ b ∈ as, a = f b := by
  induction as with
  | nil => cases h
  | cons b as ih =>
    simp only [modifyFirst] at h
    split at h
    · rcases List.mem_cons.mp h with rfl | ha
      · exact Or.inr ⟨b, List.mem_cons_self, rfl⟩
      · exact Or.inl (List.mem_cons_of_mem b ha)
    · rcases List.mem_cons.mp h with rfl | ha
      · exact Or.inl List.mem_cons_self
      · rcases ih ha with ha | ⟨b', hb', rfl⟩
        · exact Or.inl (List.mem_cons_of_mem b ha)
        · exact Or.inr ⟨b', List.mem_cons_of_mem b hb', rfl⟩

/-- Among elements with distinct keys, the first one of a key is the only one. -/
theorem modifyFirst_eq_map {α κ : Type} [BEq κ] [LawfulBEq κ] {key : α → κ} {as : List α}
    (h : (as.map key).Nodup) (k : κ) (f : α → α) :
    modifyFirst (key · == k) f as = as.map fun a => if key a == k then f a else a := by
  induction as with
  | nil => rfl
  | cons a as ih =>
    obtain ⟨ha, has⟩ := List.nodup_cons.mp h
    simp only [modifyFirst, List.map_cons]
    split
    · rename_i hak
      have hrest : as.map (fun a => if key a == k then f a else a) = as.map id :=
        List.map_congr_left fun b hb => if_neg fun hbk => ha (by
          rw [eq_of_beq hak, ← eq_of_beq hbk]
          exact List.mem_map_of_mem hb)
      rw [hrest, List.map_id]
    · rw [ih has]

/-! ### Folding keys -/

namespace Table

/-- The constraint is no key that a flag could stand for, whatever columns its table has. -/
def NeverFolds (table : String) (k : TableConstraint) : Prop :=
  ∀ columns, foldsInto? table columns k = none

/-- The constraints of the table name only columns of it. -/
def ConstrainsOwnColumns (t : Table) : Prop :=
  ∀ k ∈ t.constraints, ∀ name ∈ k.columns, name ∈ t.columns.map (·.name)

theorem isGeneratedKeyName_iff {table column name : String} :
    isGeneratedKeyName table column name = true ↔
      name = "" ∨ name = column ∨ name = table ++ "_" ++ column ++ "_key" := by
  simp only [isGeneratedKeyName, Bool.or_eq_true, String.isEmpty_iff, beq_iff_eq, or_assoc]

/-- **Which constraint folds, and into which column.** -/
theorem foldsInto?_eq_some_iff {table column : String} {columns : List Column}
    {k : TableConstraint} :
    foldsInto? table columns k = some column ↔
      k.columns = [column] ∧ column ∈ columns.map (·.name) ∧
        (k.kind = .primaryKey ∨ k.kind = .unique ∧
          (k.name = "" ∨ k.name = column ∨ k.name = table ++ "_" ++ column ++ "_key")) := by
  have hany (name : String) : (columns.any fun c => c.name == name) = true ↔
      name ∈ columns.map (·.name) := by
    simp [List.any_eq_true]
  unfold foldsInto?
  split
  · rename_i name hcolumns
    rw [← isGeneratedKeyName_iff]
    have hname : k.columns = [column] ↔ name = column := by simp [hcolumns]
    cases hkind : k.kind <;> simp only [hname, Bool.true_and, Bool.false_and, Bool.and_eq_true,
      Option.ite_none_right_eq_some, Option.some.injEq, hany] <;> grind
  · rename_i hcolumns
    exact iff_of_false nofun fun h => hcolumns column h.1

/-- Whether a key folds depends on the names of the columns only. -/
theorem foldsInto?_congr {table : String} {columns columns' : List Column}
    (h : columns.map (·.name) = columns'.map (·.name)) (k : TableConstraint) :
    foldsInto? table columns k = foldsInto? table columns' k := by
  have hany (name : String) :
      (columns.any fun c => c.name == name) = columns'.any fun c => c.name == name := by
    have := congrArg (List.any · (· == name)) h
    simpa only [List.any_map, Function.comp_def] using this
  unfold foldsInto?
  split
  · simp only [hany]
  · rfl

/-- A constraint over own columns folds at once or never. -/
theorem neverFolds_of_own {table : String} {columns : List Column} {k : TableConstraint}
    (h : foldsInto? table columns k = none)
    (hown : ∀ name ∈ k.columns, name ∈ columns.map (·.name)) : NeverFolds table k := by
  intro columns'
  unfold foldsInto? at h ⊢
  split
  · rename_i column hk
    have hany : (columns.any fun c => c.name == column) = true := by
      simpa [hk] using hown
    simp only [hk, hany, Bool.and_true, ite_eq_right_iff, reduceCtorEq, imp_false,
      Bool.not_eq_true] at h
    simp only [h, Bool.false_and, Bool.false_eq_true, ↓reduceIte]
  · rfl

/-- The columns after one constraint is folded, if it folds. -/
def foldInto (t : Table) (columns : List Column) (k : TableConstraint) : List Column :=
  match foldsInto? t.name t.columns k with
  | some column => modifyFirst (·.name == column) (keyFlag k.kind) columns
  | none => columns

@[simp] theorem name_keyFlag (kind : ConstraintKind) (c : Column) :
    (keyFlag kind c).name = c.name := by
  cases kind <;> rfl

theorem map_foldInto {β : Type} {g : Column → β} (hg : ∀ kind c, g (keyFlag kind c) = g c)
    (t : Table) (columns : List Column) (k : TableConstraint) :
    (t.foldInto columns k).map g = columns.map g := by
  unfold foldInto
  split
  · exact map_modifyFirst (hg k.kind) _ _
  · rfl

theorem map_columns_foldKeys {β : Type} {g : Column → β} (hg : ∀ kind c, g (keyFlag kind c) = g c)
    (t : Table) : t.foldKeys.columns.map g = t.columns.map g := by
  have hall (ks : List TableConstraint) (columns : List Column) :
      (ks.foldl t.foldInto columns).map g = columns.map g := by
    induction ks generalizing columns with
    | nil => rfl
    | cons k ks ih => rw [List.foldl_cons, ih, map_foldInto hg]
  exact hall t.constraints t.columns

@[simp] theorem map_name_columns_foldKeys (t : Table) :
    t.foldKeys.columns.map (·.name) = t.columns.map (·.name) :=
  map_columns_foldKeys name_keyFlag t

theorem mem_constraints_foldKeys {t : Table} {k : TableConstraint} :
    k ∈ t.foldKeys.constraints ↔ k ∈ t.constraints ∧ foldsInto? t.name t.columns k = none := by
  simp only [foldKeys, List.mem_filter, Option.isNone_iff_eq_none]

/-- A table stays as it is if none of its constraints folds. -/
theorem foldKeys_eq_self_of_foldsInto? {t : Table}
    (h : ∀ k ∈ t.constraints, foldsInto? t.name t.columns k = none) : t.foldKeys = t := by
  have hcolumns (ks : List TableConstraint)
      (hks : ∀ k ∈ ks, foldsInto? t.name t.columns k = none) :
      ks.foldl t.foldInto t.columns = t.columns := by
    induction ks with
    | nil => rfl
    | cons k ks ih =>
      rw [List.foldl_cons, foldInto, hks k List.mem_cons_self]
      exact ih fun k hk => hks k (List.mem_cons_of_mem _ hk)
  have hconstraints : t.constraints.filter (fun k => (foldsInto? t.name t.columns k).isNone) =
      t.constraints := List.filter_eq_self.mpr fun k hk => by simp [h k hk]
  calc t.foldKeys
      = { t with
          columns := t.constraints.foldl t.foldInto t.columns
          constraints := t.constraints.filter fun k =>
            (foldsInto? t.name t.columns k).isNone } := rfl
    _ = t := by rw [hcolumns t.constraints h, hconstraints]

/-- **A table whose constraints never fold is in normal form.** -/
theorem foldKeys_eq_self {t : Table} (h : ∀ k ∈ t.constraints, NeverFolds t.name k) :
    t.foldKeys = t :=
  foldKeys_eq_self_of_foldsInto? fun k hk => h k hk t.columns

/-- **Keys are folded once.** What is left does not fold into the same columns. -/
@[simp] theorem foldKeys_foldKeys (t : Table) : t.foldKeys.foldKeys = t.foldKeys := by
  refine foldKeys_eq_self_of_foldsInto? fun k hk => ?_
  obtain ⟨-, hfolds⟩ := mem_constraints_foldKeys.mp hk
  rw [← hfolds]
  exact foldsInto?_congr (map_name_columns_foldKeys t) k

end Table

end AdditiveSchema
