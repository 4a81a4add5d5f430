import AdditiveSchema.Declared.Schema
import AdditiveSchema.Proofs.IndexKeys
import AdditiveSchema.Proofs.Table.NormalForm

/-!
# Declared tables

Reading a definition is a row of steps that give a value and issues. What a row of steps gives is
what its steps give, and it is sound if all of them are. The tables of a declared schema are those
that were read, with their references filled in, and no two of them have one name.

## Main definitions

* `Checked.IsSound` : nothing that was found stands in the way.
* `Table.UsesOwnColumns` : the constraints and the indices of a table name only columns of it.
* `Declared.link` : a table with its references filled in.
* `DeclaredSchema.drafts` : the declared tables before their references are filled in.

## Main results

* `Checked.value_foldlM`, `Checked.value_mapM` : the value of a row of steps.
* `DeclaredSchema.tables_of_build` : the tables of a declared schema.
* `DeclaredSchema.nodup_names_of_build` : their names.
-/

namespace AdditiveSchema

/-! ### Values of steps -/

namespace Checked

variable {α β : Type}

theorem value_foldlM (f : β → α → Checked β) (as : List α) (b : β) :
    (as.foldlM f b).value = as.foldl (fun b a => (f b a).value) b := by
  induction as generalizing b with
  | nil => rfl
  | cons a as ih => rw [List.foldlM_cons, value_bind, ih, List.foldl_cons]

theorem value_mapM (f : α → Checked β) (as : List α) :
    (as.mapM f).value = as.map fun a => (f a).value := by
  induction as with
  | nil => rfl
  | cons a as ih =>
    rw [List.mapM_cons, value_bind, value_bind, value_pure, ih, List.map_cons]

theorem issues_mapM (f : α → Checked β) (as : List α) :
    (as.mapM f).issues = as.flatMap fun a => (f a).issues := by
  induction as with
  | nil => rfl
  | cons a as ih =>
    rw [List.mapM_cons, issues_bind, issues_bind, issues_pure, ih, List.append_nil,
      List.flatMap_cons]

/-- What every step keeps holds of the value in the end. -/
theorem value_foldlM_induction {motive : β → Prop} {f : β → α → Checked β} {as : List α} {b : β}
    (hb : motive b) (hf : ∀ b a, motive b → motive (f b a).value) :
    motive (as.foldlM f b).value := by
  rw [value_foldlM]
  induction as generalizing b with
  | nil => exact hb
  | cons a as ih => exact ih (hf b a hb)

/-- Nothing that was found stands in the way. -/
def IsSound (policy : ModifierPolicy) (x : Checked α) : Prop :=
  ∀ issue ∈ x.issues, issue.isFatal policy = false

variable {policy : ModifierPolicy}

theorem isSound_bind {x : Checked α} {f : α → Checked β} :
    (x >>= f).IsSound policy ↔ x.IsSound policy ∧ (f x.value).IsSound policy := by
  rw [IsSound, issues_bind, List.forall_mem_append]
  rfl

/-- A directive that gives no issue can be read. -/
theorem exists_ok_of_ofLexed {field directive : String} {x : Except Directive.LexError α}
    (h : (ofLexed field directive x).IsSound policy) : ∃ a, x = .ok a := by
  cases x with
  | ok a => exact ⟨a, rfl⟩
  | error e => cases h _ List.mem_cons_self

theorem isSound_mapM {f : α → Checked β} {as : List α} :
    (as.mapM f).IsSound policy ↔ ∀ a ∈ as, (f a).IsSound policy := by
  rw [IsSound, issues_mapM]
  constructor
  · intro h a ha issue hissue
    exact h issue (List.mem_flatMap.mpr ⟨a, ha, hissue⟩)
  · intro h issue hissue
    obtain ⟨a, ha, hissue⟩ := List.mem_flatMap.mp hissue
    exact h a ha issue hissue

end Checked

/-! ### Tables over their own columns -/

namespace Table

/-- The constraints of the table name only columns of it, and so do its indices, where the empty
name stands for an expression. -/
structure UsesOwnColumns (t : Table) : Prop where
  constraints : t.ConstrainsOwnColumns
  indices : ∀ i ∈ t.indices, ∀ name ∈ i.columns, name = "" ∨ name ∈ t.columns.map (·.name)

theorem UsesOwnColumns.resolve {t : Table} (h : t.UsesOwnColumns) (d : String) :
    (t.resolve d).UsesOwnColumns := by
  constructor
  · intro k hk name hname
    rw [map_name_columns_resolve]
    exact h.constraints k hk name hname
  · intro i hi name hname
    obtain ⟨j, hj, rfl⟩ := List.mem_map.mp hi
    rw [map_name_columns_resolve]
    exact h.indices j hj name hname

end Table

namespace Declared

variable {policy : ModifierPolicy}

/-! ### The parts of columns -/

theorem column_applyIndexModifier (field : String) (u : IndexUse) (m : Directive.Modifier) :
    (applyIndexModifier field u m).value.column = u.column := by
  unfold applyIndexModifier
  split <;> rfl

theorem column_of_readIndexUse {field column value : String} {u : IndexUse}
    (h : (readIndexUse field column value).value = some u) : u.column = column := by
  simp only [readIndexUse, Checked.value_bind] at h
  split at h
  · cases h
  · cases h
    exact Checked.value_foldlM_induction (motive := fun u : IndexUse => u.column = column) rfl
      fun u m hu => (column_applyIndexModifier field u m).trans hu

/-- A column is left out only for something that stands in the way. Otherwise it is given a type, if
it has none. -/
theorem exists_of_completeColumn {d : Dialect} {field : String} {kind : FieldKind} {c : Column}
    (h : (completeColumn d field kind c).IsSound policy) :
    ∃ columnType, (completeColumn d field kind c).value = some { c with columnType } := by
  unfold completeColumn at h ⊢
  split at h
  · cases h _ List.mem_cons_self
  · rename_i htype
    rw [if_neg htype]
    split at h
    · cases h _ List.mem_cons_self
    · rename_i hdefault
      rw [if_neg hdefault]
      split
      · exact ⟨_, rfl⟩
      · exact ⟨c.columnType, rfl⟩

/-! ### The modifiers of a table -/

/-- Columns that pass the check are columns of the table. -/
theorem mem_of_checkColumns {t : Table} {columns : List String} {modifier value : String}
    (h : (checkColumns t columns modifier value).value = true) :
    ∀ name ∈ columns, name ∈ t.columns.map (·.name) := by
  intro name hname
  unfold checkColumns at h
  split at h
  · cases h
  · have hnil := List.isEmpty_iff.mp h
    have hsome := List.filter_eq_nil_iff.mp hnil name hname
    rw [Option.isNone_iff_eq_none, ← ne_eq, Option.ne_none_iff_exists'] at hsome
    obtain ⟨c, hc⟩ := hsome
    have hkey := List.find?_some hc
    exact List.mem_map.mpr ⟨c, List.mem_of_find?_eq_some hc, eq_of_beq hkey⟩

/-- No columns do not pass the check. -/
theorem ne_nil_of_checkColumns {t : Table} {columns : List String} {modifier value : String}
    (h : (checkColumns t columns modifier value).value = true) : columns ≠ [] := by
  rintro rfl
  cases h

/-- Columns that give no issue pass the check. -/
theorem value_checkColumns {t : Table} {columns : List String} {modifier value : String}
    (h : (checkColumns t columns modifier value).IsSound policy) :
    (checkColumns t columns modifier value).value = true := by
  unfold checkColumns at h ⊢
  split
  · rename_i hempty
    rw [if_pos hempty] at h
    cases h _ List.mem_cons_self
  · rename_i hempty
    rw [if_neg hempty] at h
    refine List.isEmpty_iff.mpr (List.eq_nil_iff_forall_not_mem.mpr fun name hname => ?_)
    cases h _ (List.mem_map_of_mem hname)

theorem columns_applyTableIndexModifier (field : String) (draft : IndexDraft)
    (m : Directive.Modifier) :
    (applyTableIndexModifier field draft m).value.index.columns = draft.index.columns := by
  unfold applyTableIndexModifier
  split <;> rfl

/-- The modifiers of an index only name its columns; these become keys afterwards. -/
theorem columns_foldlM_applyTableIndexModifier (field : String) (ms : List Directive.Modifier) :
    (ms.foldlM (applyTableIndexModifier field) {}).value.index.columns = [] :=
  Checked.value_foldlM_induction (motive := fun draft => draft.index.columns = []) rfl
    fun draft m hdraft => (columns_applyTableIndexModifier field draft m).trans hdraft

/-! ### Tables that are kept -/

@[simp] theorem issues_keepSound (policy : ModifierPolicy) (t : Checked (Option Table)) :
    (keepSound policy t).issues = t.issues := by
  unfold keepSound
  split <;> rfl

theorem keepSound_of_isSound {t : Checked (Option Table)} (h : t.IsSound policy) :
    keepSound policy t = t := by
  rw [keepSound, if_neg]
  rw [Bool.not_eq_true, List.any_eq_false]
  exact fun issue hissue => Bool.eq_false_iff.mp (h issue hissue)

/-- A table that is kept has nothing wrong with it that stands in its way. -/
theorem isSound_of_keepSound {t : Checked (Option Table)} {u : Table}
    (h : (keepSound policy t).value = some u) : t.IsSound policy := by
  unfold keepSound at h
  split at h
  · cases h
  · rename_i hfatal
    exact fun issue hissue => Bool.eq_false_iff.mpr fun hf =>
      hfatal (List.any_eq_true.mpr ⟨issue, hissue, hf⟩)

/-! ### Filling in references -/

/-- The table with its references filled in. -/
def link (tables : List Table) (t : Table) : Table :=
  { t with columns := t.columns.map fun c => (resolveColumn tables t c).value }

theorem value_resolveReferences (tables : List Table) :
    (resolveReferences tables).value = tables.map (link tables) := by
  rw [resolveReferences, Checked.value_mapM]
  refine List.map_congr_left fun t _ => ?_
  rw [Checked.value_bind, Checked.value_pure, Checked.value_mapM, link]

/-- Only references are filled in. -/
theorem map_columns_link {β : Type} {g : Column → β}
    (hg : ∀ c references, g { c with references } = g c) (tables : List Table) (t : Table) :
    (link tables t).columns.map g = t.columns.map g := by
  rw [link, List.map_map]
  refine List.map_congr_left fun c _ => ?_
  simp only [Function.comp_apply, resolveColumn]
  split
  · rfl
  · exact hg c _

@[simp] theorem map_name_columns_link (tables : List Table) (t : Table) :
    (link tables t).columns.map (·.name) = t.columns.map (·.name) :=
  map_columns_link (fun _ _ => rfl) tables t

end Declared

/-! ### All declared tables -/

namespace DeclaredSchema

variable {d : Dialect} {policy : ModifierPolicy} {definitions : List TableDef} {s : DeclaredSchema}

/-- The declared tables before their references are filled in. -/
def drafts (d : Dialect) (policy : ModifierPolicy) (definitions : List TableDef) : List Table :=
  ((definitions.filter fun declared => !declared.isSkippedIn d).foldlM
    (addDefinition d policy) []).value

/-- **The tables of a declared schema** are those of its definitions, with their references filled
in. -/
theorem tables_of_build (h : build d policy definitions = .ok s) :
    s.tables = (drafts d policy definitions).map
      (Declared.link (drafts d policy definitions)) := by
  simp only [build, List.partition_eq_filter_filter] at h
  split at h
  · cases h
    exact Declared.value_resolveReferences _
  · cases h

/-- **The names of the tables** are different, as they were declared. -/
theorem nodup_names_of_build (h : build d policy definitions = .ok s) :
    (s.tables.map Table.qualifiedName).Nodup := by
  have hdrafts : ((drafts d policy definitions).map Table.qualifiedName).Nodup := by
    refine Checked.value_foldlM_induction
      (motive := fun tables : List Table => (tables.map Table.qualifiedName).Nodup)
      List.nodup_nil fun tables declared htables => ?_
    simp only [addDefinition, Checked.value_bind]
    split
    · exact htables
    · rename_i t _
      split
      · exact htables
      · rename_i hnew
        rw [Checked.value_pure, List.map_append, List.map_singleton, ← List.concat_eq_append,
          List.nodup_concat]
        refine ⟨fun ht => hnew (List.any_eq_true.mpr ?_), htables⟩
        obtain ⟨u, hu, hname⟩ := List.mem_map.mp ht
        exact ⟨u, hu, beq_iff_eq.mpr hname⟩
  rw [tables_of_build h, List.map_map]
  exact hdrafts

end DeclaredSchema

end AdditiveSchema
