import AdditiveSchema.Proofs.IndexGroups
import AdditiveSchema.Proofs.References
import AdditiveSchema.Proofs.Text.Splitting

/-!
# The grammar of references

The target of a reference is a table, a column of a table, or a column of a table in a schema, with
points between the parts. If the column is left out, it is the primary key of the declared table
that the target means, which must have one column. Every target that is written like this is
accepted. A text is accepted, too, if its schema or its table is empty and something follows; then
the foreign key has no table, or one whose schema was not meant to be left out. So the foreign keys
of a declared schema name their tables and columns if and only if no target has an empty part in
front of another one, and no column is left out where the primary key has the empty name.

## Main definitions

* `Declared.IsTarget` : the grammar of targets.
* `Declared.PointsAt` : a foreign key once it is filled in.
* `TableDef.KeepsGrammar`, `TableDef.FillsParts` : what a definition writes as targets.
* `TableDef.Links` : the foreign keys of a table are those of its definition.

## Main results

* `Declared.isTarget_iff` : which targets of those that are accepted are in the grammar.
* `Declared.references_draftColumn` : the reference of a column.
* `DeclaredSchema.build_references_iff` : the foreign keys of all definitions.
-/

namespace AdditiveSchema

open Directive

/-! ### The grammar of targets -/

namespace Declared

/-- A part of a target: a text without points, and not empty. -/
structure IsPart (part : String) : Prop where
  ne_empty : part ≠ ""
  plain : '.' ∉ part.toList

/-- The grammar of targets, with the table and the column that are named. A column that is left out
is empty, with a point in front of it or without. -/
inductive IsTarget : (text : String) → (table : QualifiedName) → (column : String) → Prop
  | table {table : String} (htable : IsPart table) : IsTarget table ⟨"", table⟩ ""
  | column {table column : String} (htable : IsPart table) (hcolumn : '.' ∉ column.toList) :
    IsTarget (table ++ "." ++ column) ⟨"", table⟩ column
  | qualified {schema table column : String} (hschema : IsPart schema) (htable : IsPart table)
    (hcolumn : '.' ∉ column.toList) :
    IsTarget (schema ++ "." ++ table ++ "." ++ column) ⟨schema, table⟩ column

/-- No part of the text is empty but for the last one. -/
def FillsParts (text : String) : Prop :=
  ∀ part ∈ (Text.split '.' text).dropLast, part ≠ ""

instance (text : String) : Decidable (FillsParts text) :=
  inferInstanceAs (Decidable (∀ part ∈ (Text.split '.' text).dropLast, part ≠ ""))

section Grammar

variable {text column : String} {table : QualifiedName}

theorem split_point_append (s t : String) :
    Text.split '.' (s ++ "." ++ t) = Text.split '.' s ++ Text.split '.' t :=
  Text.split_append '.' s t

theorem IsTarget.name_ne_empty (h : IsTarget text table column) : table.name ≠ "" := by
  cases h with
  | table htable => exact htable.ne_empty
  | column htable _ => exact htable.ne_empty
  | qualified _ htable _ => exact htable.ne_empty

/-- **Every target of the grammar is accepted**, as what it names. -/
theorem IsTarget.readTarget_eq (h : IsTarget text table column) :
    readTarget text = some (table, column) := by
  unfold readTarget
  cases h with
  | table htable => simp [Text.split_of_notMem htable.plain, htable.ne_empty]
  | column htable hcolumn =>
    simp [split_point_append, Text.split_of_notMem htable.plain, Text.split_of_notMem hcolumn]
  | qualified hschema htable hcolumn =>
    simp [split_point_append, Text.split_of_notMem hschema.plain,
      Text.split_of_notMem htable.plain, Text.split_of_notMem hcolumn]

theorem IsTarget.fillsParts (h : IsTarget text table column) : FillsParts text := by
  unfold FillsParts
  cases h with
  | table htable => simp [Text.split_of_notMem htable.plain]
  | column htable hcolumn =>
    simp [split_point_append, Text.split_of_notMem htable.plain, Text.split_of_notMem hcolumn,
      htable.ne_empty]
  | qualified hschema htable hcolumn =>
    simp [split_point_append, Text.split_of_notMem hschema.plain,
      Text.split_of_notMem htable.plain, Text.split_of_notMem hcolumn, htable.ne_empty,
      hschema.ne_empty]

/-- **Which accepted targets are in the grammar:** those without an empty part in front of another
one. -/
theorem isTarget_iff :
    IsTarget text table column ↔ readTarget text = some (table, column) ∧ FillsParts text := by
  refine ⟨fun h => ⟨h.readTarget_eq, h.fillsParts⟩, ?_⟩
  rintro ⟨hread, hfills⟩
  have htext := Text.intercalate_split '.' text
  have hplain (part : String) (h : part ∈ Text.split '.' text) : '.' ∉ part.toList :=
    Text.notMem_of_mem_split h
  unfold FillsParts at hfills
  unfold readTarget at hread
  -- one case for each number of parts
  split at hread
  · rename_i only hparts
    rw [hparts] at htext hplain hfills
    split at hread
    · cases hread
    · rename_i hne
      cases hread
      rw [String.intercalate_singleton] at htext
      subst htext
      exact .table ⟨fun h => hne (String.isEmpty_iff.mpr h), hplain _ List.mem_cons_self⟩
  · rename_i name key hparts
    rw [hparts] at htext hplain hfills
    cases hread
    subst htext
    exact .column ⟨hfills _ List.mem_cons_self, hplain _ List.mem_cons_self⟩ (hplain _ (by simp))
  · rename_i schema name key hparts
    rw [hparts] at htext hplain hfills
    cases hread
    subst htext
    exact .qualified ⟨hfills _ List.mem_cons_self, hplain _ List.mem_cons_self⟩
      ⟨hfills _ (by simp), hplain _ (by simp)⟩ (hplain _ (by simp))
  · cases hread

end Grammar

/-! ### The reference of a column -/

/-- The target of a `references` modifier with that text: its table and its column. -/
def targetOf? (value : String) : Option (QualifiedName × String) :=
  match valueAndModifiers value with
  | .ok (text, _) => readTarget text
  | .error _ => none

/-- What a foreign key points at. -/
def targetOf (fk : ForeignKey) : QualifiedName × String :=
  (fk.table, fk.column)

section Column

variable {policy : ModifierPolicy} {d : Dialect} {field : String}

theorem targetOf_applyReferenceModifier (fk : ForeignKey) (m : Modifier) :
    targetOf (applyReferenceModifier field fk m).value = targetOf fk := by
  unfold applyReferenceModifier
  split <;> simp [targetOf]

/-- **A reference that gives no issue** can be read, and points at its target. -/
theorem exists_of_readReference {value : String} (h : (readReference field value).IsSound policy) :
    ∃ text ms fk, valueAndModifiers value = .ok (text, ms) ∧
      readTarget text = some (targetOf fk) ∧ (readReference field value).value = some fk := by
  obtain ⟨⟨text, ms⟩, hlex⟩ := Checked.exists_ok_of_ofLexed (Checked.isSound_bind.mp h).1
  rw [readReference, hlex, Checked.ofLexed, pure_bind] at h ⊢
  dsimp only at h ⊢
  split at h
  · have hreport := (Checked.isSound_bind.mp h).1
    cases hreport _ (List.mem_singleton_self _)
  · rename_i table column hread
    refine ⟨text, ms, _, rfl, ?_, rfl⟩
    rw [hread]
    refine congrArg some (Eq.symm ?_)
    exact Checked.value_foldlM_induction (motive := fun fk => targetOf fk = (table, column)) rfl
      fun fk m hfk => (targetOf_applyReferenceModifier fk m).trans hfk

theorem targetOf?_of_readReference {value : String}
    (h : (readReference field value).IsSound policy) :
    (readReference field value).value.map targetOf = targetOf? value ∧
      (readReference field value).value.isSome = true := by
  obtain ⟨text, ms, fk, hlex, hread, hvalue⟩ := exists_of_readReference h
  rw [hvalue, targetOf?, hlex]
  exact ⟨hread.symm, rfl⟩

/-- One more modifier: a reference takes the place of the one before it. -/
theorem references_applyColumnModifier {draft : ColumnDraft} {m : Modifier}
    (h : (applyColumnModifier d field draft m).IsSound policy) :
    (applyColumnModifier d field draft m).value.column.references.map targetOf =
      if m.name == "references" then targetOf? m.value
      else draft.column.references.map targetOf := by
  unfold applyColumnModifier at h ⊢
  split at h
  case h_7 hname =>
    obtain ⟨htarget, hsome⟩ := targetOf?_of_readReference (Checked.isSound_bind.mp h).1
    obtain ⟨fk, hfk⟩ := Option.isSome_iff_exists.mp hsome
    rw [hfk] at htarget
    simpa [hname, hfk] using htarget
  all_goals simp_all [Column.asPrimaryKey]

/-- **The last reference counts.** -/
theorem references_foldlM {ms : List Modifier} {draft : ColumnDraft}
    (hdraft : draft.column.references = none)
    (h : (ms.foldlM (applyColumnModifier d field) draft).IsSound policy) :
    (ms.foldlM (applyColumnModifier d field) draft).value.column.references.map targetOf =
      (lastValue? "references" ms).bind targetOf? := by
  induction ms using List.reverseRecOn with
  | nil => rw [List.foldlM_nil, Checked.value_pure, hdraft]; rfl
  | append_singleton ms m ih =>
    rw [List.foldlM_append] at h ⊢
    obtain ⟨hfirst, hlast⟩ := Checked.isSound_bind.mp h
    rw [Checked.value_bind, List.foldlM_cons, Checked.value_bind, List.foldlM_nil,
      Checked.value_pure, references_applyColumnModifier (Checked.isSound_bind.mp hlast).1,
      ih hfirst, lastValue?_concat]
    split <;> rfl

/-- The issues of all references are found. -/
theorem isSound_readReference {ms : List Modifier} {draft : ColumnDraft}
    (h : (ms.foldlM (applyColumnModifier d field) draft).IsSound policy) {m : Modifier}
    (hm : m ∈ ms) (hname : m.name = "references") :
    (readReference field m.value).IsSound policy := by
  intro issue hissue
  refine h issue (Checked.mem_issues_foldlM hm (fun draft => ?_) draft)
  simp only [applyColumnModifier, hname]
  exact List.mem_append_left _ hissue

end Column

end Declared

/-- The target that the directive gives: the last one. -/
def ColumnDef.target? (c : ColumnDef) : Option (QualifiedName × String) :=
  (lastValue? "references" c.modifiers).bind Declared.targetOf?

namespace Declared

section Draft

variable {policy : ModifierPolicy} {d : Dialect} {table : String} {declared : TableDef}
  {c : ColumnDef}

theorem isSound_draftColumn
    (h : (readColumn d table (declared.customization? d) c).IsSound policy)
    (hdrops : declared.drops d c = false) : (draftColumn d table declared c).IsSound policy := by
  obtain ⟨ms, hms⟩ := Checked.exists_ok_of_ofLexed (Checked.isSound_bind.mp h).1
  rw [readColumn_eq hms, hdrops, if_neg Bool.false_ne_true] at h
  exact (Checked.isSound_bind.mp h).1

/-- **The reference of a column** points at the target that the directive gives. -/
theorem references_draftColumn (h : (draftColumn d table declared c).IsSound policy) :
    (draftColumn d table declared c).value.column.references.map targetOf = c.target? := by
  have hreferences := references_foldlM rfl (Checked.isSound_bind.mp h).1
  simp only [draftColumn, Checked.value_bind, Checked.value_pure]
  split
  · exact hreferences
  · exact hreferences

/-- **Every reference of a column** has a target that is accepted. -/
theorem exists_of_isSound_draftColumn (h : (draftColumn d table declared c).IsSound policy)
    {value : String} (hvalue : value ∈ c.values "references") :
    ∃ text ms target, valueAndModifiers value = .ok (text, ms) ∧ readTarget text = some target := by
  obtain ⟨m, hm, rfl⟩ := List.mem_map.mp hvalue
  obtain ⟨hm, hname⟩ := List.mem_filter.mp hm
  obtain ⟨text, ms, fk, hlex, hread, -⟩ := exists_of_readReference
    (isSound_readReference (Checked.isSound_bind.mp h).1 hm (eq_of_beq hname))
  exact ⟨text, ms, _, hlex, hread⟩

end Draft

/-! ### Foreign keys that are filled in -/

/-- The foreign key is that of a reference with the target, which stands in `origin`. Its table has
the schema of the declared table that is meant, if there is one and none was given, and its column
is the primary key of that table, if none was given. -/
structure PointsAt (tables : List Table) (origin : Table) (target : QualifiedName × String)
    (fk : ForeignKey) : Prop where
  table : fk.table = (findTarget tables origin target.1).elim target.1 (target.1.resolve ·.schema)
  given : target.2 ≠ "" → fk.column = target.2
  bare : target.2 = "" → ∃ t, findTarget tables origin target.1 = some t ∧
    t.singlePrimaryKey = some fk.column

theorem PointsAt.name_table {tables : List Table} {origin : Table}
    {target : QualifiedName × String} {fk : ForeignKey} (h : PointsAt tables origin target fk) :
    fk.table.name = target.1.name := by
  rw [h.table]
  cases findTarget tables origin target.1 with
  | none => rfl
  | some t => exact QualifiedName.name_resolve _ _

section Links

variable {policy : ModifierPolicy} {tables : List Table} {origin : Table} {field : String}

/-- **What gives no issue is filled in.** -/
theorem pointsAt_resolveReference {fk : ForeignKey}
    (h : (resolveReference tables origin field fk).IsSound policy) :
    PointsAt tables origin (targetOf fk) (resolveReference tables origin field fk).value := by
  unfold resolveReference at h ⊢
  cases htarget : findTarget tables origin fk.table with
  | none =>
    simp only [htarget] at h ⊢
    split at h
    · rename_i hgiven
      rw [if_pos hgiven]
      refine ⟨by simp [targetOf, htarget], fun _ => rfl, fun hbare => ?_⟩
      rw [show fk.column = "" from hbare] at hgiven
      cases hgiven
    · have hreport := (Checked.isSound_bind.mp h).1
      cases hreport _ (List.mem_singleton_self _)
  | some t =>
    simp only [htarget] at h ⊢
    split at h
    · rename_i hgiven
      rw [if_pos hgiven]
      refine ⟨by simp [targetOf, htarget], fun _ => rfl, fun hbare => ?_⟩
      rw [show fk.column = "" from hbare] at hgiven
      cases hgiven
    · rename_i hbare
      rw [if_neg hbare]
      split at h
      · rename_i key hkey
        refine ⟨by simp [targetOf, htarget], fun hgiven => ?_, fun _ => ⟨t, htarget, hkey⟩⟩
        exact absurd hgiven (by simpa [targetOf] using hbare)
      · have hreport := (Checked.isSound_bind.mp h).1
        cases hreport _ (List.mem_singleton_self _)

theorem findTarget_link (all : List Table) (n : QualifiedName) :
    findTarget (tables.map (link all)) (link all origin) n =
      (findTarget tables origin n).map (link all) := by
  simp only [findTarget, List.filter_map, List.find?_map, List.head?_map]
  split
  · exact Option.map_or.symm
  · rfl

theorem singlePrimaryKey_link (t : Table) :
    (link tables t).singlePrimaryKey = t.singlePrimaryKey := by
  have hname (c : Column) : (resolveColumn tables t c).value.name = c.name := by
    unfold resolveColumn
    split <;> rfl
  have hflag (c : Column) : (resolveColumn tables t c).value.primaryKey = c.primaryKey := by
    unfold resolveColumn
    split <;> rfl
  have hkeys : (link tables t).columns.filter (·.primaryKey) =
      (t.columns.filter (·.primaryKey)).map fun c => (resolveColumn tables t c).value := by
    rw [link, List.filter_map]
    simp only [Function.comp_def, hflag]
  unfold Table.singlePrimaryKey
  rw [hkeys]
  generalize t.columns.filter (·.primaryKey) = keys
  obtain _ | ⟨only, _ | ⟨second, rest⟩⟩ := keys
  · rfl
  · exact congrArg some (hname only)
  · rfl

/-- Filling in the references of all tables changes nothing of what a foreign key points at. -/
theorem pointsAt_link {all : List Table} {target : QualifiedName × String} {fk : ForeignKey}
    (h : PointsAt tables origin target fk) :
    PointsAt (tables.map (link all)) (link all origin) target fk where
  table := by
    rw [h.table, findTarget_link]
    cases findTarget tables origin target.1 <;> rfl
  given := h.given
  bare hbare := by
    obtain ⟨t, ht, hkey⟩ := h.bare hbare
    exact ⟨link all t, by rw [findTarget_link, ht, Option.map_some],
      (singlePrimaryKey_link t).trans hkey⟩

/-- **The reference of a column** once it is filled in. -/
theorem rel_pointsAt_resolveColumn {c : Column}
    (h : (resolveColumn tables origin c).IsSound policy) :
    Option.Rel (PointsAt (tables.map (link tables)) (link tables origin))
      (c.references.map targetOf) (resolveColumn tables origin c).value.references := by
  cases hfk : c.references with
  | none =>
    rw [resolveColumn, hfk]
    rw [Checked.value_pure, hfk]
    exact .none
  | some fk =>
    rw [references_resolveColumn hfk]
    rw [resolveColumn, hfk] at h
    exact .some (pointsAt_link (pointsAt_resolveReference (Checked.isSound_bind.mp h).1))

end Links

end Declared

/-! ### The references of a definition -/

section Rel

variable {α β : Type} {R : α → β → Prop}

theorem exists_of_rel_left {a : α} {b? : Option β} (h : Option.Rel R (some a) b?) :
    ∃ b, b? = some b ∧ R a b := by
  cases h with
  | some hab => exact ⟨_, rfl, hab⟩

theorem exists_of_rel_right {a? : Option α} {b : β} (h : Option.Rel R a? (some b)) :
    ∃ a, a? = some a ∧ R a b := by
  cases h with
  | some hab => exact ⟨_, rfl, hab⟩

end Rel

namespace TableDef

variable (declared : TableDef) (d : Dialect)

/-- Every target that the definition writes is in the grammar. -/
def KeepsGrammar : Prop :=
  ∀ c ∈ declared.columns, declared.drops d c = false → ∀ value ∈ c.values "references",
    ∃ text ms table column, valueAndModifiers value = .ok (text, ms) ∧
      Declared.IsTarget text table column

/-- No target that the definition writes has an empty part in front of another one. -/
def FillsParts : Prop :=
  ∀ c ∈ declared.columns, declared.drops d c = false → ∀ value ∈ c.values "references",
    ∀ text ms, valueAndModifiers value = .ok (text, ms) → Declared.FillsParts text

/-- No column is left out of a target where the primary key has the empty name. -/
def AvoidsUnnamedKeys (tables : List Table) (t : Table) : Prop :=
  ∀ c ∈ declared.columnsIn d, ∀ table, c.target? = some (table, "") →
    ∀ target, Declared.findTarget tables t table = some target → target.singlePrimaryKey ≠ some ""

/-- **The references of the definition.** Each of them can be read, and a column of the table has
the foreign key of its last one, and none if it has none. -/
structure Links (tables : List Table) (t : Table) : Prop where
  accepted : ∀ c ∈ declared.columns, declared.drops d c = false →
    ∀ value ∈ c.values "references", ∃ text ms target,
      valueAndModifiers value = .ok (text, ms) ∧ Declared.readTarget text = some target
  references : List.Forall₂
    (fun c u => Option.Rel (Declared.PointsAt tables t) c.target? u.references)
    (declared.columnsIn d) t.columns

end TableDef

/-- Every foreign key of the table names a table and a column. -/
def Table.NamesTargets (t : Table) : Prop :=
  ∀ c ∈ t.columns, ∀ fk ∈ c.references, fk.table.name ≠ "" ∧ fk.column ≠ ""

namespace Declared

variable {policy : ModifierPolicy} {d : Dialect} {declared : TableDef} {t : Table}

/-- The targets of the columns, before they are filled in. -/
theorem ReadsAs.references (h : ReadsAs policy d declared t) :
    t.columns.map (·.references.map targetOf) = (declared.columnsIn d).map (·.target?) := by
  obtain ⟨hcolumns, u, hu, hadds⟩ := exists_adds_readTable h.isSound
  obtain rfl : u.foldKeys = t := Option.some.inj (hu.symm.trans h.value)
  have hfold : u.foldKeys.columns.map (·.references.map targetOf) =
      u.columns.map (·.references.map targetOf) :=
    Table.map_columns_foldKeys (fun kind c => by cases kind <;> rfl) u
  have hdrafts := map_readColumns (f := (·.references.map targetOf))
    (g := fun c =>
      (draftColumn d declared.tableName declared c).value.column.references.map targetOf)
    (fun _ _ => rfl) hcolumns
  rw [hfold, hadds.columns]
  refine hdrafts.trans (List.map_congr_left fun c hc => ?_)
  exact references_draftColumn (isSound_draftColumn
    (Checked.isSound_mapM.mp hcolumns c (TableDef.mem_columnsIn.mp hc).1)
    (TableDef.drops_of_mem_columnsIn hc))

/-- **The references of one definition** are those of its table. -/
theorem ReadsAs.links {tables : List Table} (h : ReadsAs policy d declared t)
    (hresolve : ∀ c ∈ t.columns, (resolveColumn tables t c).IsSound policy) :
    declared.Links d (tables.map (link tables)) (link tables t) where
  accepted c hc hdrops value hvalue := by
    obtain ⟨hcolumns, -⟩ := exists_adds_readTable h.isSound
    exact exists_of_isSound_draftColumn
      (isSound_draftColumn (Checked.isSound_mapM.mp hcolumns c hc) hdrops) hvalue
  references := by
    have hall : List.Forall₂ (fun u c => u.references.map targetOf = c.target?) t.columns
        (declared.columnsIn d) := by
      rw [← List.forall₂_map_left_iff (f := fun u : Column => u.references.map targetOf)
        (R := fun target c => target = ColumnDef.target? c), h.references,
        List.forall₂_map_left_iff, List.forall₂_same]
      exact fun _ _ => rfl
    rw [link, List.forall₂_map_right_iff]
    refine ((List.forall₂_and_left _ _).mpr ⟨hresolve, hall⟩).flip.imp ?_
    rintro c u ⟨hsound, htarget⟩
    exact htarget ▸ rel_pointsAt_resolveColumn hsound

end Declared

namespace TableDef

variable {declared : TableDef} {d : Dialect} {tables : List Table} {t : Table}

/-- In the grammar, a target has a table. -/
theorem KeepsGrammar.name_ne_empty (h : declared.KeepsGrammar d) {c : ColumnDef}
    (hc : c ∈ declared.columnsIn d) {target : QualifiedName × String}
    (htarget : c.target? = some target) : target.1.name ≠ "" := by
  obtain ⟨value, hvalue, htarget⟩ := Option.bind_eq_some_iff.mp htarget
  obtain ⟨text, ms, table, column, hlex, hgrammar⟩ := h c (mem_columnsIn.mp hc).1
    (drops_of_mem_columnsIn hc) value (List.mem_of_getLast? hvalue)
  rw [Declared.targetOf?, hlex] at htarget
  cases hgrammar.readTarget_eq.symm.trans htarget
  exact hgrammar.name_ne_empty

namespace Links

theorem keepsGrammar_iff (h : declared.Links d tables t) :
    declared.KeepsGrammar d ↔ declared.FillsParts d := by
  constructor
  · intro hgrammar c hc hdrops value hvalue text ms hlex
    obtain ⟨text', ms', table, column, hlex', htarget⟩ := hgrammar c hc hdrops value hvalue
    cases hlex.symm.trans hlex'
    exact htarget.fillsParts
  · intro hfills c hc hdrops value hvalue
    obtain ⟨text, ms, target, hlex, hread⟩ := h.accepted c hc hdrops value hvalue
    exact ⟨text, ms, target.1, target.2, hlex,
      Declared.isTarget_iff.mpr ⟨hread, hfills c hc hdrops value hvalue text ms hlex⟩⟩

theorem namesTargets_iff (h : declared.Links d tables t) (hgrammar : declared.KeepsGrammar d) :
    t.NamesTargets ↔ declared.AvoidsUnnamedKeys d tables t := by
  constructor
  · intro hnames c hc table htarget target hfind hkey
    obtain ⟨u, hu, hrel⟩ := exists_of_forall₂_left h.references hc
    rw [htarget] at hrel
    obtain ⟨fk, hfk, hpoints⟩ := exists_of_rel_left hrel
    obtain ⟨target', hfind', hkey'⟩ := hpoints.bare rfl
    cases hfind.symm.trans hfind'
    exact (hnames u hu fk hfk).2 (Option.some.inj (hkey'.symm.trans hkey))
  · intro havoids u hu fk hfk
    obtain ⟨c, hc, hrel⟩ := exists_of_forall₂_right h.references hu
    rw [show u.references = some fk from hfk] at hrel
    obtain ⟨target, htarget, hpoints⟩ := exists_of_rel_right hrel
    refine ⟨hpoints.name_table ▸ hgrammar.name_ne_empty hc htarget, ?_⟩
    by_cases hbare : target.2 = ""
    · obtain ⟨t', hfind, hkey⟩ := hpoints.bare hbare
      intro hempty
      exact havoids c hc target.1 (hbare ▸ htarget) t' hfind (hempty ▸ hkey)
    · exact hpoints.given hbare ▸ hbare

end Links

end TableDef

namespace DeclaredSchema

variable {d : Dialect} {policy : ModifierPolicy} {definitions : List TableDef} {s : DeclaredSchema}

/-! ### All definitions -/

/-- What is filled in gives no issue that stands in the way. -/
theorem isSound_resolveColumn_of_build (h : build d policy definitions = .ok s) {t : Table}
    (ht : t ∈ drafts d policy definitions) {c : Column} (hc : c ∈ t.columns) :
    (Declared.resolveColumn (drafts d policy definitions) t c).IsSound policy := by
  have hread : (Declared.resolveReferences (drafts d policy definitions)).IsSound policy :=
    (Checked.isSound_bind.mp (build_eq_ok_iff.mp h).1).2
  have htable := Checked.isSound_mapM.mp hread t ht
  exact Checked.isSound_mapM.mp (Checked.isSound_bind.mp htable).1 c hc

/-- **The foreign keys of a declared schema.** Every target of the grammar is accepted, as what it
names. Every reference can be read, and its target is accepted. A column has the foreign key of its
last reference: the schema that is left out is that of the declared table that is meant, and the
column that is left out is the primary key of that table, which has one column. The targets are all
in the grammar, and all foreign keys name a table and a column, if and only if no target has an
empty part in front of another one, and no column is left out where the primary key has the empty
name. -/
theorem build_references_iff (h : build d policy definitions = .ok s) :
    (∀ text table column, Declared.IsTarget text table column →
      Declared.readTarget text = some (table, column)) ∧
    List.Forall₂ (fun declared t => declared.Links d s.tables t ∧
      (declared.KeepsGrammar d ∧ t.NamesTargets ↔
        declared.FillsParts d ∧ declared.AvoidsUnnamedKeys d s.tables t))
      (kept d definitions) s.tables := by
  refine ⟨fun text table column htarget => htarget.readTarget_eq, ?_⟩
  obtain ⟨added, hadded, hall⟩ := forall₂_foldlM_addDefinition (isSound_of_build h)
  obtain rfl : drafts d policy definitions = added := hadded
  have htables := tables_of_build h
  rw [htables, List.forall₂_map_right_iff]
  have hboth := (List.forall₂_and_left _ _).mpr ⟨fun t ht => ht, hall.flip⟩
  refine hboth.flip.imp ?_
  rintro declared t ⟨ht, hreads⟩
  have hlinks := hreads.links fun c hc => isSound_resolveColumn_of_build h ht hc
  refine ⟨hlinks, ?_⟩
  rw [hlinks.keepsGrammar_iff]
  exact and_congr_right fun hfills => hlinks.namesTargets_iff (hlinks.keepsGrammar_iff.mpr hfills)

end DeclaredSchema

/-- A review is of a film and of an actor in another schema, and has the title of the film. -/
def reviewOfFilm : List TableDef := [
  { name := "film"
    columns := [
      { field := "film_id", kind := .number, directive := "primarykey" },
      { field := "title", kind := .string, directive := "unique" }] },
  { name := "actor"
    schema := "cinema"
    columns := [{ field := "actor_id", kind := .number, directive := "primarykey" }] },
  { name := "review"
    columns := [
      { field := "film_id", kind := .number, directive := "references=film" },
      { field := "actor_id", kind := .number, directive := "references=cinema.actor." },
      { field := "title", kind := .string, directive := "references=film.title" }] }]

/-- The three kinds of targets, the last point of a target in front of no column. -/
theorem build_references_iff_reviewOfFilm :
    ∃ s, DeclaredSchema.build .postgres .warn reviewOfFilm = .ok s ∧
      s.tables.map (·.columns.filterMap fun c => c.references.map fun fk =>
        (fk.table, fk.column)) = [[], [],
          [(⟨"", "film"⟩, "film_id"), (⟨"cinema", "actor"⟩, "actor_id"), (⟨"", "film"⟩, "title")]] ∧
      List.Forall₂ (fun declared t => declared.Links .postgres s.tables t ∧
        declared.KeepsGrammar .postgres ∧ t.NamesTargets) reviewOfFilm s.tables := by
  obtain ⟨s, hbuild, hkeys, hprimary⟩ : ∃ s,
      DeclaredSchema.build .postgres .warn reviewOfFilm = .ok s ∧
      s.tables.map (·.columns.filterMap fun c => c.references.map fun fk =>
        (fk.table, fk.column)) = [[], [],
          [(⟨"", "film"⟩, "film_id"), (⟨"cinema", "actor"⟩, "actor_id"), (⟨"", "film"⟩, "title")]] ∧
      s.tables.map (·.singlePrimaryKey) = [some "film_id", some "actor_id", none] := by
    decide +kernel
  refine ⟨s, hbuild, hkeys, ?_⟩
  have hkept : DeclaredSchema.kept .postgres reviewOfFilm = reviewOfFilm := rfl
  have hall := hkept ▸ (DeclaredSchema.build_references_iff hbuild).2
  have htexts : ((reviewOfFilm.flatMap (·.columns)).flatMap (·.values "references")).map
      (fun value => (valueAndModifiers value).toOption.map (·.1)) =
        [some "film", some "cinema.actor.", some "film.title"] := by decide +kernel
  have hfills : ∀ text, some text ∈ [some "film", some "cinema.actor.", some "film.title"] →
      Declared.FillsParts text := by
    simp only [List.mem_cons, Option.some.injEq, List.not_mem_nil, or_false]
    rintro text (rfl | rfl | rfl) <;> decide
  refine ((List.forall₂_and_left _ _).mpr ⟨fun declared hd => hd, hall⟩).imp ?_
  rintro declared t ⟨hd, hlinks, hiff⟩
  refine ⟨hlinks, hiff.mpr ⟨fun c hc _ value hvalue text ms hlex => hfills text ?_, ?_⟩⟩
  · rw [← htexts, List.mem_map]
    exact ⟨value, List.mem_flatMap.mpr ⟨c, List.mem_flatMap.mpr ⟨declared, hd, hc⟩, hvalue⟩,
      by rw [hlex]; rfl⟩
  · intro c _ table _ target hfind hempty
    have hmem := List.mem_map_of_mem (f := (·.singlePrimaryKey)) (Declared.of_findTarget hfind).1
    rw [hprimary, hempty] at hmem
    revert hmem
    decide

/-- A review refers to a column of a table that was forgotten. -/
def reviewOfNothing : TableDef where
  name := "review"
  columns := [{ field := "language_code", kind := .string, directive := "references=.code" }]

/-- **An empty table is accepted in front of a column**, and the foreign key has no table. -/
theorem build_acceptsEmptyTable_reviewOfNothing :
    ∃ s, DeclaredSchema.build .postgres .warn [reviewOfNothing] = .ok s ∧
      (∃ t ∈ s.tables, t.columns.map (·.references) =
        [some { table := ⟨"", ""⟩, column := "code" }] ∧ ¬t.NamesTargets) ∧
      ¬reviewOfNothing.KeepsGrammar .postgres := by
  obtain ⟨s, hbuild, hreferences⟩ : ∃ s,
      DeclaredSchema.build .postgres .warn [reviewOfNothing] = .ok s ∧
      s.tables.map (·.columns.map (·.references)) =
        [[some { table := ⟨"", ""⟩, column := "code" }]] := by
    decide +kernel
  obtain ⟨t, htables, ht⟩ := List.map_eq_singleton_iff.mp hreferences
  obtain ⟨c, hc, hkey⟩ := List.map_eq_singleton_iff.mp ht
  refine ⟨s, hbuild, ⟨t, htables ▸ List.mem_cons_self, ht, fun hnames => ?_⟩, fun hgrammar => ?_⟩
  · exact (hnames c (hc ▸ List.mem_cons_self) _ hkey).1 rfl
  · have hvalues : reviewOfNothing.columns.flatMap (·.values "references") = [".code"] := by
      decide +kernel
    obtain ⟨c, hc, hvalue⟩ := List.mem_flatMap.mp (hvalues ▸ List.mem_singleton_self ".code")
    have hkept : reviewOfNothing.drops .postgres c = false := List.mem_singleton.mp hc ▸ rfl
    obtain ⟨text, ms, table, column, hlex, htarget⟩ := hgrammar c hc hkept ".code" hvalue
    have htext : valueAndModifiers ".code" = .ok (".code", []) := by decide +kernel
    cases htext.symm.trans hlex
    exact absurd htarget.fillsParts (by decide)

end AdditiveSchema
