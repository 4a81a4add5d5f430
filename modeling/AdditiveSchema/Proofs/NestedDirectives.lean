import AdditiveSchema.Proofs.DeclaredColumns
import AdditiveSchema.Proofs.Directive.Nesting
import AdditiveSchema.Proofs.RejectedDirectives

/-!
# Directives inside of directives

Some modifiers have a value that is read as a directive in turn. Everything that reading a
definition reports about braces is about one of its directives, about such a value, or about an
index that the dialect adds. The names of these modifiers have no braces, so their values are
balanced if the braces at their ends belong together, and then only directives are rejected, but no
value of a directive that can be read.

## Main definitions

* `Checked.lexErrors` : what a step reports about braces.
* `ColumnDef.nestingNames`, `TableDef.nestingNames` : the modifiers with values that are read in
  turn.
* `Directive.Breaks` : a value that is read in turn cannot be read.
* `TableDef.EndsMatch` : the braces at the ends of the values of a definition belong together.

## Main results

* `TableDef.mem_rejected_or_breaks` : what a report about braces is about.
* `nestedValues_areBalanced` : which values are balanced, and that they can be read in turn.
-/

namespace AdditiveSchema

open Directive

/-! ### What steps report about braces -/

namespace Checked

variable {α β : Type} {r : String × LexError}

/-- What the step reports about braces. -/
def lexErrors (x : Checked α) : List (String × LexError) :=
  x.issues.filterMap Issue.lexError?

@[simp] theorem lexErrors_pure (a : α) : (pure a : Checked α).lexErrors = [] := rfl

@[simp] theorem lexErrors_bind (x : Checked α) (f : α → Checked β) :
    (x >>= f).lexErrors = x.lexErrors ++ (f x.value).lexErrors :=
  List.filterMap_append

@[simp] theorem lexErrors_map (f : α → β) (x : Checked α) : (f <$> x).lexErrors = x.lexErrors := by
  rw [← bind_pure_comp, lexErrors_bind, lexErrors_pure, List.append_nil]

@[simp] theorem lexErrors_report (issue : Issue) :
    (report issue).lexErrors = issue.lexError?.toList := by
  cases issue <;> rfl

@[simp] theorem lexErrors_ofWord {ε : Type} (field : String) (m : Modifier) (message : ε → String)
    (x : Except ε α) : (ofWord field m message x).lexErrors = [] := by
  cases x <;> rfl

theorem lexErrors_mapM (f : α → Checked β) (as : List α) :
    (as.mapM f).lexErrors = as.flatMap fun a => (f a).lexErrors := by
  rw [lexErrors, issues_mapM, List.filterMap_flatMap]
  rfl

/-- What is reported in a row of steps is reported in one of them. -/
theorem exists_of_mem_lexErrors_foldlM {step : β → α → Checked β} {as : List α} {b : β}
    (h : r ∈ (as.foldlM step b).lexErrors) : ∃ a ∈ as, ∃ b', r ∈ (step b' a).lexErrors := by
  induction as generalizing b with
  | nil => cases h
  | cons a as ih =>
    rw [List.foldlM_cons, lexErrors_bind, List.mem_append] at h
    rcases h with h | h
    · exact ⟨a, List.mem_cons_self, b, h⟩
    · obtain ⟨a', ha', hstep⟩ := ih h
      exact ⟨a', List.mem_cons_of_mem a ha', hstep⟩

theorem lexErrors_foldlM {step : β → α → Checked β} (h : ∀ b a, (step b a).lexErrors = [])
    (as : List α) (b : β) : (as.foldlM step b).lexErrors = [] := by
  refine List.eq_nil_iff_forall_not_mem.mpr fun r hr => ?_
  obtain ⟨a, -, b', hstep⟩ := exists_of_mem_lexErrors_foldlM hr
  rw [h] at hstep
  cases hstep

/-- Every report about braces is about the text, whose braces do not match. -/
def OnlyRejects (x : Checked α) (text : String) : Prop :=
  ∀ r ∈ x.lexErrors, r.1 = text ∧ ¬IsBalanced text.toList

/-- Only the reading of the text itself can report it, if nothing is reported afterwards. -/
theorem onlyRejects_bind {field text : String} {x : Except LexError α} {k : Option α → Checked β}
    (hx : (∃ a, x = .ok a) ↔ IsBalanced text.toList) (hnone : (k none).lexErrors = [])
    (hsome : ∀ a, (k (some a)).lexErrors = []) : (ofLexed field text x >>= k).OnlyRejects text := by
  intro r hr
  cases x with
  | ok a =>
    rw [ofLexed, pure_bind, hsome] at hr
    cases hr
  | error e =>
    have hr : r ∈ (text, e) :: (k none).lexErrors := hr
    rw [hnone] at hr
    obtain rfl := List.mem_singleton.mp hr
    exact ⟨rfl, fun h => by simpa using hx.mpr h⟩

end Checked

namespace Declared

open Checked

/-! ### Values that are read in turn -/

section Values

variable (field : String)

theorem lexErrors_applyIndexModifier (u : IndexUse) (m : Modifier) :
    (applyIndexModifier field u m).lexErrors = [] := by
  unfold applyIndexModifier
  split <;> simp [Issue.lexError?]

theorem lexErrors_applyReferenceModifier (fk : ForeignKey) (m : Modifier) :
    (applyReferenceModifier field fk m).lexErrors = [] := by
  unfold applyReferenceModifier
  split <;> simp [Issue.lexError?]

theorem lexErrors_applyGeneratedModifier (stored : Bool) (m : Modifier) :
    (applyGeneratedModifier field stored m).lexErrors = [] := by
  unfold applyGeneratedModifier
  split <;> simp [Issue.lexError?]

theorem lexErrors_applyTableIndexModifier (draft : IndexDraft) (m : Modifier) :
    (applyTableIndexModifier field draft m).lexErrors = [] := by
  unfold applyTableIndexModifier
  split <;> simp [Issue.lexError?]

theorem lexErrors_applyKeyModifier (columns : List String) (m : Modifier) :
    (applyKeyModifier field columns m).lexErrors = [] := by
  unfold applyKeyModifier
  split <;> simp [Issue.lexError?]

theorem lexErrors_applyCheckModifier (expr : String) (m : Modifier) :
    (applyCheckModifier field expr m).lexErrors = [] := by
  unfold applyCheckModifier
  split <;> simp [Issue.lexError?]

theorem lexErrors_checkColumns (t : Table) (columns : List String) (modifier value : String) :
    (checkColumns t columns modifier value).lexErrors = [] := by
  unfold checkColumns
  split
  · simp [Issue.lexError?]
  · simp [lexErrors, List.filterMap_map, Function.comp_def, Issue.lexError?]

theorem onlyRejects_readIndexUse (column value : String) :
    (readIndexUse field column value).OnlyRejects value :=
  onlyRejects_bind exists_valueAndModifiers_iff rfl fun read => by
    simp [lexErrors_foldlM (lexErrors_applyIndexModifier field)]

theorem onlyRejects_readReference (value : String) :
    (readReference field value).OnlyRejects value := by
  refine onlyRejects_bind exists_valueAndModifiers_iff rfl fun read => ?_
  simp only
  split
  · rfl
  · simp [lexErrors_foldlM (lexErrors_applyReferenceModifier field)]

theorem onlyRejects_readGenerated (value : String) :
    (readGenerated field value).OnlyRejects value :=
  onlyRejects_bind exists_valueAndModifiers_iff rfl fun read => by
    simp [lexErrors_foldlM (lexErrors_applyGeneratedModifier field)]

theorem onlyRejects_addTableIndex (t : Table) (value : String) :
    (addTableIndex t value).OnlyRejects value := by
  refine onlyRejects_bind exists_valueAndModifiers_iff rfl fun read => ?_
  simp only [lexErrors_bind, lexErrors_foldlM (lexErrors_applyTableIndexModifier t.name),
    lexErrors_checkColumns, List.nil_append]
  split <;> rfl

theorem onlyRejects_addTableKey (kind : KeyKind) (t : Table) (m : Modifier) :
    (addTableKey kind t m).OnlyRejects m.value := by
  refine onlyRejects_bind exists_valueAndModifiers_iff rfl fun read => ?_
  simp only [lexErrors_bind, lexErrors_foldlM (lexErrors_applyKeyModifier t.name),
    lexErrors_checkColumns, List.nil_append]
  split <;> rfl

theorem onlyRejects_addTableCheck (t : Table) (value : String) :
    (addTableCheck t value).OnlyRejects value := by
  refine onlyRejects_bind exists_valueAndModifiers_iff rfl fun read => ?_
  simp only [lexErrors_bind, lexErrors_foldlM (lexErrors_applyCheckModifier t.name),
    List.nil_append]
  split <;> rfl

theorem onlyRejects_setFullText (t : Table) (value : String) :
    (setFullText t value).OnlyRejects value :=
  onlyRejects_bind exists_modifiers_iff rfl fun _ => rfl

end Values

end Declared

/-! ### Modifiers of columns and tables -/

/-- The modifiers of a column with values that are read in turn. -/
def ColumnDef.nestingNames : List String :=
  ["index", "references", "generated"]

/-- The modifiers of a table with values that are read in turn. -/
def TableDef.nestingNames : List String :=
  ["index", "unique", "primarykey", "check", "fts5"]

/-- The directive can be read, but the text cannot, and it is the value of one of the modifiers of
these names. -/
def Directive.Breaks (names : List String) (directive text : String) : Prop :=
  ∃ ms, modifiers directive = .ok ms ∧ ∃ m ∈ ms, m.name ∈ names ∧ text = m.value ∧
    ¬IsBalanced text.toList

/-- In the values that the directive gives under these names, braces at both ends belong
together. -/
def Directive.HasMatchingEnds (names : List String) (directive : String) : Prop :=
  ∀ values, IsRowOfValues directive.toList values → ∀ value ∈ values,
    (Modifier.ofValue value).name ∈ names → Directive.EndsMatch value

/-- If the names have no braces, then these values can be read. -/
theorem Directive.HasMatchingEnds.not_breaks {names : List String} {directive text : String}
    (h : HasMatchingEnds names directive) (hnames : ∀ name ∈ names, IsBalanced name.toList) :
    ¬Breaks names directive text := by
  rintro ⟨ms, hms, m, hm, hname, rfl, hbalanced⟩
  obtain ⟨values, hrow, rfl⟩ := modifiersAt_eq_ok_iff.mp hms
  obtain ⟨value, hvalue, rfl⟩ := List.mem_map.mp hm
  have hiff := Modifier.isBalanced_value_iff (hrow.isBalanced value hvalue)
    (h values hrow value hvalue hname)
  exact hbalanced (hiff.mpr (hnames _ hname))

namespace Declared

open Checked

variable {d : Dialect} {declared : TableDef} {r : String × LexError}

/-- A report about a modifier: its name is one of these, and its value cannot be read. -/
def IsValueOf (names : List String) (m : Modifier) (r : String × LexError) : Prop :=
  m.name ∈ names ∧ r.1 = m.value ∧ ¬IsBalanced r.1.toList

theorem isValueOf_of_onlyRejects {α : Type} {names : List String} {m : Modifier} {x : Checked α}
    (hname : m.name ∈ names) (hx : x.OnlyRejects m.value) (hr : r ∈ x.lexErrors) :
    IsValueOf names m r := by
  obtain ⟨hvalue, hbalanced⟩ := hx r hr
  exact ⟨hname, hvalue, hvalue ▸ hbalanced⟩

/-- What a modifier of a column reports at once. Its indices are read later. -/
theorem isValueOf_of_applyColumnModifier {field : String} {draft : ColumnDraft} {m : Modifier}
    (h : r ∈ (applyColumnModifier d field draft m).lexErrors) :
    IsValueOf ColumnDef.nestingNames m r := by
  unfold applyColumnModifier at h
  simp only at h
  -- Besides references, generated values and modes, no modifier reports anything about a value.
  split at h
  case h_7 hname =>
    rw [bind_pure_comp, lexErrors_map] at h
    exact isValueOf_of_onlyRejects (by simp [hname, ColumnDef.nestingNames])
      (onlyRejects_readReference field _) h
  case h_9 hname =>
    rw [bind_pure_comp, lexErrors_map] at h
    exact isValueOf_of_onlyRejects (by simp [hname, ColumnDef.nestingNames])
      (onlyRejects_readGenerated field _) h
  case h_11 =>
    rw [bind_pure_comp, lexErrors_map, readAutoincrement] at h
    split at h
    · cases h
    · rw [lexErrors_ofWord] at h
      cases h
  all_goals simp [Issue.lexError?] at h

/-- What a modifier of a table reports. -/
theorem isValueOf_of_applyTableModifier {t : Table} {m : Modifier}
    (h : r ∈ (applyTableModifier d t m).lexErrors) : IsValueOf TableDef.nestingNames m r := by
  unfold applyTableModifier at h
  split at h
  · cases h
  · rename_i hname
    exact isValueOf_of_onlyRejects (by simp [hname, TableDef.nestingNames])
      (onlyRejects_addTableIndex t _) h
  · rename_i hname
    exact isValueOf_of_onlyRejects (by simp [hname, TableDef.nestingNames])
      (onlyRejects_addTableKey _ t m) h
  · rename_i hname
    exact isValueOf_of_onlyRejects (by simp [hname, TableDef.nestingNames])
      (onlyRejects_addTableKey _ t m) h
  · rename_i hname
    exact isValueOf_of_onlyRejects (by simp [hname, TableDef.nestingNames])
      (onlyRejects_addTableCheck t _) h
  · rename_i hname
    split at h
    · exact isValueOf_of_onlyRejects (by simp [hname, TableDef.nestingNames])
        (onlyRejects_setFullText t _) h
    · cases h
  · simp [Issue.lexError?] at h

/-! ### Columns and tables -/

theorem lexErrors_completeColumn (field : String) (kind : FieldKind) (c : Column) :
    (completeColumn d field kind c).lexErrors = [] := by
  unfold completeColumn
  split
  · simp [Issue.lexError?]
  · split <;> simp [Issue.lexError?]

/-- What is reported about a column whose directive can be read. -/
theorem breaks_of_readColumn {c : ColumnDef} {ms : List Modifier}
    (hms : Directive.modifiers c.directive = .ok ms) {table : String}
    (h : r ∈ (readColumn d table (declared.customization? d) c).lexErrors) :
    Breaks ColumnDef.nestingNames c.directive r.1 := by
  have hvalue {m : Modifier} (hm : m ∈ ms) (hr : IsValueOf ColumnDef.nestingNames m r) :
      Breaks ColumnDef.nestingNames c.directive r.1 :=
    ⟨ms, hms, m, hm, hr⟩
  rw [readColumn_eq hms] at h
  split at h
  · cases h
  · rw [lexErrors_bind, List.mem_append] at h
    rcases h with h | h
    · rw [draftColumn, bind_pure_comp, lexErrors_map] at h
      obtain ⟨m, hm, draft, hr⟩ := exists_of_mem_lexErrors_foldlM h
      exact hvalue (ColumnDef.modifiers_eq hms ▸ hm) (isValueOf_of_applyColumnModifier hr)
    · split at h
      · cases h
      · simp only [readParts, lexErrors_bind, lexErrors_mapM, lexErrors_completeColumn,
          lexErrors_pure, List.append_nil, indexed_draftColumn] at h
        obtain ⟨value, hindex, hr⟩ := List.mem_flatMap.mp h
        obtain ⟨m, hm, rfl⟩ := List.mem_map.mp hindex
        obtain ⟨hm, hname⟩ := List.mem_filter.mp hm
        have hname : m.name ∈ ColumnDef.nestingNames := by
          simp [beq_iff_eq.mp hname, ColumnDef.nestingNames]
        exact hvalue (ColumnDef.modifiers_eq hms ▸ hm)
          (isValueOf_of_onlyRejects hname (onlyRejects_readIndexUse _ _ _) hr)

/-- What is reported about the additions of a dialect. -/
theorem exists_bareIndex_of_addCustom {t : Table} {custom : Customization}
    (h : r ∈ (addCustom t custom).lexErrors) : ∃ index ∈ custom.indices, r.1 = bareIndex index := by
  rw [addCustom, bind_pure_comp, lexErrors_map] at h
  obtain ⟨index, hindex, u, hr⟩ := exists_of_mem_lexErrors_foldlM h
  exact ⟨index, hindex, (onlyRejects_addTableIndex u _ r hr).1⟩

/-- What is reported about a table behind its columns. -/
theorem breaks_of_fillTable {ms : List Modifier}
    (hms : Directive.modifiers declared.directive = .ok ms) {t : Table}
    (h : r ∈ (fillTable d declared ms t).lexErrors) :
    Breaks TableDef.nestingNames declared.directive r.1 ∨
    ∃ custom ∈ declared.customization? d, ∃ index ∈ custom.indices, r.1 = bareIndex index := by
  rw [fillTable, lexErrors_bind, List.mem_append] at h
  rcases h with h | h
  · obtain ⟨m, hm, u, hr⟩ := exists_of_mem_lexErrors_foldlM h
    exact .inl ⟨ms, hms, m, hm, isValueOf_of_applyTableModifier hr⟩
  · simp only at h
    split at h
    · rename_i custom hcustom
      rw [bind_pure_comp, lexErrors_map] at h
      exact .inr ⟨custom, hcustom, exists_bareIndex_of_addCustom h⟩
    · cases h

end Declared

namespace TableDef

open Checked Declared

variable {d : Dialect} {declared : TableDef} {r : String × LexError}

/-- **What a report about braces is about:** a directive of the definition that cannot be read, a
value that is read in turn of one that can, or an index that the dialect adds. -/
theorem mem_rejected_or_breaks (h : r ∈ declared.reported d) :
    r ∈ declared.rejected ∨ Breaks nestingNames declared.directive r.1 ∨
    (∃ c ∈ declared.columns, Breaks ColumnDef.nestingNames c.directive r.1) ∨
    ∃ custom ∈ declared.customization? d, ∃ index ∈ custom.indices, r.1 = bareIndex index := by
  cases hms : Directive.modifiers declared.directive with
  | error e =>
    rw [reported_of_error hms] at h
    rw [rejected, rejection?_of_error hms]
    exact .inl (List.mem_append_left _ h)
  | ok ms =>
    change r ∈ (readTable d declared).lexErrors at h
    rw [readTable_eq declared hms] at h
    split at h
    · cases h
    · rw [lexErrors_bind, lexErrors_mapM, List.mem_append] at h
      rcases h with h | h
      · obtain ⟨c, hc, hr⟩ := List.mem_flatMap.mp h
        cases hcolumn : Directive.modifiers c.directive with
        | error e =>
          rw [lexErrors, issues_readColumn_of_error hcolumn] at hr
          obtain rfl := List.mem_singleton.mp hr
          exact .inl (List.mem_append_right _
            (List.mem_filterMap.mpr ⟨c, hc, rejection?_of_error hcolumn⟩))
        | ok _ => exact .inr (.inr (.inl ⟨c, hc, breaks_of_readColumn hcolumn hr⟩))
      · rcases breaks_of_fillTable hms h with h | h
        · exact .inr (.inl h)
        · exact .inr (.inr (.inr h))

/-- In the values of the definition that are read in turn, braces at both ends belong together. -/
structure EndsMatch (declared : TableDef) : Prop where
  table : HasMatchingEnds nestingNames declared.directive
  columns : ∀ c ∈ declared.columns, HasMatchingEnds ColumnDef.nestingNames c.directive

/-- Then only directives are rejected, and indices that the dialect adds. -/
theorem EndsMatch.mem_rejected_or_bareIndex (hends : declared.EndsMatch)
    (h : r ∈ declared.reported d) : r ∈ declared.rejected ∨
      ∃ custom ∈ declared.customization? d, ∃ index ∈ custom.indices, r.1 = bareIndex index := by
  rcases mem_rejected_or_breaks h with h | h | ⟨c, hc, h⟩ | h
  · exact .inl h
  · exact absurd h (hends.table.not_breaks (by decide))
  · exact absurd h ((hends.columns c hc).not_breaks (by decide))
  · exact .inr h

end TableDef

/-- **Which values are balanced, and that they can be read in turn.** The modifiers of a text are
its values, each of which is balanced, split at the first equals sign. If braces at both ends of
what stands behind this sign belong together, then the value of a modifier is balanced just if its
name is. The balanced texts are those that can be read, as modifiers or as a value with modifiers.
So in definitions with such values, all errors about braces are about directives that cannot be read
themselves, and about indices that the dialect adds. -/
theorem nestedValues_areBalanced :
    (∀ (s : String) (ms : List Modifier), modifiers s = .ok ms →
      ∃ values, IsRowOfValues s.toList values ∧ ms = values.map Modifier.ofValue ∧
        ∀ value ∈ values, IsBalanced value ∧ (Directive.EndsMatch value →
          (IsBalanced (Modifier.ofValue value).value.toList ↔
            IsBalanced (Modifier.ofValue value).name.toList))) ∧
    (∀ s : String, ((∃ ms, modifiers s = .ok ms) ↔ IsBalanced s.toList) ∧
      ((∃ read, valueAndModifiers s = .ok read) ↔ IsBalanced s.toList)) ∧
    ∀ (d : Dialect) (policy : ModifierPolicy) (definitions : List TableDef) (errors : List Issue),
      DeclaredSchema.build d policy definitions = .error errors →
      (∀ declared ∈ DeclaredSchema.kept d definitions, declared.EndsMatch) →
      ∀ field text e, Issue.lex field text e ∈ errors →
        ∃ declared ∈ DeclaredSchema.kept d definitions, (text, e) ∈ declared.rejected ∨
          ∃ custom ∈ declared.customization? d, ∃ index ∈ custom.indices,
            text = Declared.bareIndex index := by
  refine ⟨fun s ms hms => ?_, fun s => ⟨exists_modifiers_iff, exists_valueAndModifiers_iff⟩, ?_⟩
  · obtain ⟨values, hrow, rfl⟩ := modifiersAt_eq_ok_iff.mp hms
    refine ⟨values, hrow, rfl, fun value hvalue => ⟨hrow.isBalanced value hvalue, ?_⟩⟩
    exact Modifier.isBalanced_value_iff (hrow.isBalanced value hvalue)
  · intro d policy definitions errors herrors hends field text e hmem
    obtain ⟨rfl, -⟩ := DeclaredSchema.build_eq_error_iff.mp herrors
    have hreported : (text, e) ∈ (DeclaredSchema.kept d definitions).flatMap (·.reported d) := by
      rw [← DeclaredSchema.filterMap_lexError?_blockers d policy definitions]
      exact List.mem_filterMap.mpr ⟨_, hmem, rfl⟩
    obtain ⟨declared, hdeclared, hr⟩ := List.mem_flatMap.mp hreported
    exact ⟨declared, hdeclared, (hends declared hdeclared).mem_rejected_or_bareIndex hr⟩

/-- A column with an index over part of the films, and one whose directive is broken. -/
def taggedFilm : TableDef where
  name := "film"
  columns := [
    { field := "tags", kind := .string, directive := "index={. where={tags <> {}}}" },
    { field := "year", kind := .number, directive := "notnull\x7d" }]

/-- In the index of the films the braces at the ends belong together. -/
theorem endsMatch_taggedFilm : taggedFilm.EndsMatch := by
  refine ⟨fun values hrow => ?_, fun c hc values hrow => ?_⟩
  · rw [isRowOfValues_nil_iff.mp hrow]
    exact nofun
  · rcases List.mem_pair.mp hc with rfl | rfl
    · have hcut : cutAt 0 "index={. where={tags <> {}}}".toList =
          .ok ("index={. where={tags <> {}}}".toList, []) := rfl
      obtain ⟨value, rest, behind, hread, hbehind, rfl⟩ :=
        (isRowOfValues_iff 0 (by decide)).mp hrow
      cases hcut.symm.trans hread
      cases isRowOfValues_nil_iff.mp hbehind
      decide
    · have hcut : cutAt 0 "notnull\x7d".toList =
          .error ⟨7, .unmatchedClosing, "notnull\x7d"⟩ := rfl
      obtain ⟨value, rest, behind, hread, -⟩ :=
        (isRowOfValues_iff 0 (by decide)).mp hrow
      cases hcut.symm.trans hread

/-- The value of the index is balanced and can be read in turn, so that no brace of it is reported
beside the broken directive. -/
theorem nestedValues_areBalanced_taggedFilm :
    (∃ ms, modifiers "index={. where={tags <> {}}}" = .ok ms ∧
      ∀ m ∈ ms, IsBalanced m.value.toList ∧ ∃ read, valueAndModifiers m.value = .ok read) ∧
    ∃ errors, DeclaredSchema.build .postgres .warn [taggedFilm] = .error errors ∧
      ∀ field text e, Issue.lex field text e ∈ errors → (text, e) ∈ taggedFilm.rejected := by
  obtain ⟨hvalues, hread, hbuild⟩ := nestedValues_areBalanced
  have hindex : modifiers "index={. where={tags <> {}}}" =
      .ok [⟨"index", ". where={tags <> {}}"⟩] := by decide +kernel
  have hkept : DeclaredSchema.kept .postgres [taggedFilm] = [taggedFilm] := by decide
  obtain ⟨errors, herrors⟩ : ∃ errors,
      DeclaredSchema.build .postgres .warn [taggedFilm] = .error errors :=
    Except.isOk_eq_false_iff.mp (by decide +kernel)
  refine ⟨⟨_, hindex, fun m hm => ?_⟩, errors, herrors, fun field text e hmem => ?_⟩
  · obtain ⟨values, hrow, hms, hall⟩ := hvalues _ _ hindex
    obtain ⟨value, hvalue, hvalueOf⟩ := List.mem_map.mp (hms ▸ hm)
    have hname : (Modifier.ofValue value).name = "index" := by
      rw [hvalueOf, List.mem_singleton.mp hm]
    have hends : Directive.EndsMatch value :=
      endsMatch_taggedFilm.columns _ List.mem_cons_self values hrow value hvalue
        (hname ▸ by decide)
    have hbalanced : IsBalanced m.value.toList := by
      rw [← hvalueOf]
      exact ((hall value hvalue).2 hends).mpr (hname ▸ by decide)
    exact ⟨hbalanced, (hread m.value).2.mpr hbalanced⟩
  · obtain ⟨declared, hdeclared, h⟩ := hbuild .postgres .warn [taggedFilm] _ herrors
      (fun declared hdeclared => by
        rw [hkept] at hdeclared
        exact List.mem_singleton.mp hdeclared ▸ endsMatch_taggedFilm) field text e hmem
    rw [hkept] at hdeclared
    obtain rfl := List.mem_singleton.mp hdeclared
    rcases h with h | ⟨custom, hcustom, -⟩
    · exact h
    · cases hcustom

/-- The equals sign of this text stands inside of braces, so the value of its modifier is a closing
brace, which cannot be read. -/
theorem modifiers_unbalancedValue :
    ∃ m e, modifiers "x\x7b=\x7d" = .ok [m] ∧ ¬IsBalanced m.value.toList ∧
      valueAndModifiers m.value = .error e :=
  ⟨⟨"x\x7b", "\x7d"⟩, ⟨0, .unmatchedClosing, "\x7d"⟩, by decide +kernel, by decide,
    by decide +kernel⟩

end AdditiveSchema
