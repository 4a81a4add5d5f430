import AdditiveSchema.Proofs.DeclaredIssues
import Mathlib.Data.List.Flatten

/-!
# Directives that cannot be read

One run is to show all directives that are rejected for their braces. No definition keeps the next
one from being read, and no column the next one. But the columns of a table are read only once the
directive of the table gave it a name. If that directive is rejected itself, or if it leaves the
table without a name, then nothing is said about the directives of the columns.

## Main definitions

* `TableDef.rejected` : the directives of a definition that cannot be read, with the reasons.
* `TableDef.reported` : what reading the definition reports about braces.
* `TableDef.IsNamed` : the directive of the table can be read and leaves the table a name.

## Main results

* `TableDef.rejected_sublist_reported_iff` : when all rejected directives of a definition are
  reported.
* `DeclaredSchema.build_reportsRejected_iff` : when those of all definitions are.
-/

namespace AdditiveSchema

/-- The text that the issue is about and what is wrong with its braces. -/
def Issue.lexError? : Issue → Option (String × Directive.LexError)
  | .lex _ directive source => some (directive, source)
  | _ => none

theorem Issue.lexError?_of_isJoint {issue : Issue} (h : issue.isJoint = true) :
    issue.lexError? = none := by
  cases issue <;> first | rfl | cases h

/-- Wrong braces are never let pass. -/
theorem Issue.isFatal_of_lexError? {policy : ModifierPolicy} {issue : Issue}
    (h : issue.lexError?.isSome) : issue.isFatal policy = true := by
  cases issue <;> first | rfl | cases h

/-- What stands in the way has all that is wrong with braces. -/
theorem Issue.filterMap_lexError?_filter_isFatal (policy : ModifierPolicy) (issues : List Issue) :
    (issues.filter (Issue.isFatal policy)).filterMap Issue.lexError? =
      issues.filterMap Issue.lexError? := by
  rw [List.filterMap_filter]
  refine List.filterMap_congr fun issue _ => ?_
  split
  · rfl
  · rename_i hfatal
    cases herror : issue.lexError? with
    | none => rfl
    | some _ => exact absurd (Issue.isFatal_of_lexError? (by rw [herror]; rfl)) hfatal

/-- The directive and the reason why it cannot be read, if so. -/
def Directive.rejection? (directive : String) : Option (String × Directive.LexError) :=
  match Directive.modifiers directive with
  | .ok _ => none
  | .error e => some (directive, e)

theorem Directive.rejection?_of_ok {directive : String} {ms : List Directive.Modifier}
    (h : Directive.modifiers directive = .ok ms) : Directive.rejection? directive = none := by
  rw [Directive.rejection?, h]

theorem Directive.rejection?_of_error {directive : String} {e : Directive.LexError}
    (h : Directive.modifiers directive = .error e) :
    Directive.rejection? directive = some (directive, e) := by
  rw [Directive.rejection?, h]

theorem Directive.eq_error_of_rejection? {directive : String} {r : String × Directive.LexError}
    (h : Directive.rejection? directive = some r) :
    r.1 = directive ∧ Directive.modifiers directive = .error r.2 := by
  unfold Directive.rejection? at h
  split at h
  · cases h
  · rename_i e he
    cases h
    exact ⟨rfl, he⟩

namespace Declared

variable {d : Dialect} {declared : TableDef} {ms : List Directive.Modifier}

/-- A column whose directive is rejected is reported, whatever the dialect changes of it. -/
theorem issues_readColumn_of_error {table : String} {custom : Option Customization} {c : ColumnDef}
    {e : Directive.LexError} (h : Directive.modifiers c.directive = .error e) :
    (readColumn d table custom c).issues = [.lex (table ++ "." ++ c.field) c.directive e] := by
  rw [readColumn, h]
  rfl

/-- A table whose directive is rejected is not read any further. -/
theorem issues_readTable_of_error {e : Directive.LexError}
    (h : Directive.modifiers declared.directive = .error e) :
    (readTable d declared).issues = [.lex declared.name declared.directive e] := by
  rw [readTable, h]
  rfl

/-- A table without a name is not read any further. -/
theorem issues_readTable_of_nameOr_eq_empty
    (h : Directive.modifiers declared.directive = .ok ms) (hname : nameOr declared.name ms = "") :
    (readTable d declared).issues =
      [.invalidValue declared.name "name" "" "table name is empty"] := by
  rw [readTable, h]
  simp only [Checked.ofLexed, pure_bind, hname]
  rfl

/-- The issues of the columns of a table come first. -/
theorem prefix_issues_readTable (h : Directive.modifiers declared.directive = .ok ms)
    (hname : nameOr declared.name ms ≠ "") :
    (declared.columns.flatMap fun c =>
      (readColumn d (nameOr declared.name ms) (declared.customization? d) c).issues) <+:
        (readTable d declared).issues := by
  have hname : (nameOr declared.name ms).isEmpty = false := by
    rwa [← Bool.not_eq_true, String.isEmpty_iff]
  rw [readTable, h]
  simp only [Checked.ofLexed, pure_bind, hname, Bool.false_eq_true, if_false]
  rw [Checked.issues_bind, Checked.issues_mapM]
  exact List.prefix_append ..

end Declared

namespace TableDef

variable {d : Dialect} {declared : TableDef}

/-- The directives of the columns that cannot be read, in order. -/
def rejectedColumns (declared : TableDef) : List (String × Directive.LexError) :=
  declared.columns.filterMap fun c => Directive.rejection? c.directive

/-- The directives of the definition that cannot be read: that of the table, and those of its
columns. -/
def rejected (declared : TableDef) : List (String × Directive.LexError) :=
  (Directive.rejection? declared.directive).toList ++ declared.rejectedColumns

/-- What reading the definition reports about braces. Besides directives, these are the values of
modifiers that have a value and modifiers of their own. -/
def reported (d : Dialect) (declared : TableDef) : List (String × Directive.LexError) :=
  (Declared.readTable d declared).issues.filterMap Issue.lexError?

/-- The directive of the table can be read, and it leaves the table a name. -/
def IsNamed (declared : TableDef) : Prop :=
  ∃ ms, Directive.modifiers declared.directive = .ok ms ∧ Declared.nameOr declared.name ms ≠ ""

theorem reported_of_error {e : Directive.LexError}
    (h : Directive.modifiers declared.directive = .error e) :
    declared.reported d = [(declared.directive, e)] := by
  rw [reported, Declared.issues_readTable_of_error h]
  rfl

theorem reported_of_nameOr_eq_empty {ms : List Directive.Modifier}
    (h : Directive.modifiers declared.directive = .ok ms)
    (hname : Declared.nameOr declared.name ms = "") : declared.reported d = [] := by
  rw [reported, Declared.issues_readTable_of_nameOr_eq_empty h hname]
  rfl

/-- If the table gets a name, the rejected directives are all of columns. -/
theorem IsNamed.rejected_eq (h : declared.IsNamed) :
    declared.rejected = declared.rejectedColumns := by
  obtain ⟨ms, hms, -⟩ := h
  rw [rejected, Directive.rejection?_of_ok hms]
  rfl

/-- If the table gets a name, all rejected directives of its columns are reported, in order. -/
theorem IsNamed.rejectedColumns_sublist (h : declared.IsNamed) :
    declared.rejectedColumns.Sublist (declared.reported d) := by
  obtain ⟨ms, hms, hname⟩ := h
  let read := Declared.readColumn d (Declared.nameOr declared.name ms) (declared.customization? d)
  have hcolumn (c : ColumnDef) : (Directive.rejection? c.directive).toList.Sublist
      ((read c).issues.filterMap Issue.lexError?) := by
    cases hr : Directive.rejection? c.directive with
    | none => exact List.nil_sublist _
    | some r =>
      obtain ⟨hdirective, he⟩ := Directive.eq_error_of_rejection? hr
      rw [Declared.issues_readColumn_of_error he, ← hdirective]
      exact List.Sublist.refl _
  have hcolumns : declared.rejectedColumns.Sublist
      ((declared.columns.flatMap fun c => (read c).issues).filterMap Issue.lexError?) := by
    rw [rejectedColumns, List.filterMap_eq_flatMap_toList, List.filterMap_flatMap]
    exact List.Sublist.flatMap_right _ fun c _ => hcolumn c
  exact hcolumns.trans ((Declared.prefix_issues_readTable hms hname).sublist.filterMap _)

/-- A definition leaves its table without a name in one of two ways. -/
theorem not_isNamed_iff : ¬declared.IsNamed ↔
    (∃ e, Directive.modifiers declared.directive = .error e) ∨
      ∃ ms, Directive.modifiers declared.directive = .ok ms ∧
        Declared.nameOr declared.name ms = "" := by
  unfold IsNamed
  cases Directive.modifiers declared.directive with
  | error e => simp
  | ok ms => simp

/-- The directive of the table itself is reported if it is rejected. -/
theorem rejection?_sublist_reported (d : Dialect) (declared : TableDef) :
    (Directive.rejection? declared.directive).toList.Sublist (declared.reported d) := by
  cases h : Directive.modifiers declared.directive with
  | ok ms =>
    rw [Directive.rejection?_of_ok h]
    exact List.nil_sublist _
  | error e =>
    rw [Directive.rejection?_of_error h, reported_of_error h]
    exact List.Sublist.refl _

/-- **When all rejected directives of a definition are reported:** the table gets a name, or there
are none of columns. -/
theorem rejected_sublist_reported_iff (d : Dialect) (declared : TableDef) :
    declared.rejected.Sublist (declared.reported d) ↔
      declared.IsNamed ∨ declared.rejectedColumns = [] := by
  by_cases hnamed : declared.IsNamed
  · rw [hnamed.rejected_eq]
    exact iff_of_true hnamed.rejectedColumns_sublist (Or.inl hnamed)
  · rw [or_iff_right hnamed]
    constructor
    · -- There is no room for another report beside that of the directive of the table.
      intro h
      have hlength := h.length_le
      rcases not_isNamed_iff.mp hnamed with ⟨e, he⟩ | ⟨ms, hms, hname⟩
      · rw [rejected, reported_of_error he, Directive.rejection?_of_error he] at hlength
        simpa using hlength
      · rw [rejected, reported_of_nameOr_eq_empty hms hname, Directive.rejection?_of_ok hms]
          at hlength
        simpa using hlength
    · intro h
      rw [rejected, h, List.append_nil]
      exact rejection?_sublist_reported d declared

/-- A definition with a rejected directive has an issue that is never let pass, even if it is not
about braces. -/
theorem exists_isFatal_of_rejected_ne_nil (h : declared.rejected ≠ []) (d : Dialect)
    (policy : ModifierPolicy) :
    ∃ issue ∈ (Declared.readTable d declared).issues, issue.isFatal policy = true := by
  by_cases hnamed : declared.IsNamed
  · rw [hnamed.rejected_eq] at h
    obtain ⟨r, hr⟩ := List.exists_mem_of_ne_nil _ h
    obtain ⟨issue, hissue, herror⟩ :=
      List.mem_filterMap.mp ((hnamed.rejectedColumns_sublist (d := d)).subset hr)
    exact ⟨issue, hissue, Issue.isFatal_of_lexError? (by rw [herror]; rfl)⟩
  · rcases not_isNamed_iff.mp hnamed with ⟨e, he⟩ | ⟨ms, hms, hname⟩
    · rw [Declared.issues_readTable_of_error he]
      exact ⟨_, List.mem_singleton_self _, rfl⟩
    · rw [Declared.issues_readTable_of_nameOr_eq_empty hms hname]
      exact ⟨_, List.mem_singleton_self _, rfl⟩

end TableDef

namespace DeclaredSchema

variable {d : Dialect} {policy : ModifierPolicy} {definitions : List TableDef}

/-- The errors about braces are those of the definitions, in their order. -/
theorem filterMap_lexError?_blockers (d : Dialect) (policy : ModifierPolicy)
    (definitions : List TableDef) :
    (blockers d policy definitions).filterMap Issue.lexError? =
      (kept d definitions).flatMap (·.reported d) := by
  rw [blockers, Issue.filterMap_lexError?_filter_isFatal,
    filterMap_issues_readTables fun issue h => Issue.lexError?_of_isJoint h]
  rfl

/-- A rejected directive stands in the way of the schema. -/
theorem blockers_ne_nil_of_rejected_ne_nil {declared : TableDef}
    (hdeclared : declared ∈ kept d definitions) (h : declared.rejected ≠ []) :
    blockers d policy definitions ≠ [] := by
  obtain ⟨issue, hissue, hfatal⟩ := declared.exists_isFatal_of_rejected_ne_nil h d policy
  exact List.ne_nil_of_mem
    (List.mem_filter.mpr ⟨mem_issues_readTables hdeclared hissue, hfatal⟩)

/-- **When all rejected directives are reported.** If a definition that the dialect has holds a
rejected directive, there is no schema. The errors about braces are those of the definitions, in
their order. Each of these reports a rejected directive of its table, and it reports those of its
columns just if it gives its table a name or there are none. -/
theorem build_reportsRejected_iff (d : Dialect) (policy : ModifierPolicy)
    (definitions : List TableDef) :
    ((∃ declared ∈ kept d definitions, declared.rejected ≠ []) →
      ∃ errors, build d policy definitions = .error errors) ∧
    ∀ errors, build d policy definitions = .error errors →
      errors.filterMap Issue.lexError? = (kept d definitions).flatMap (·.reported d) ∧
      ∀ declared ∈ kept d definitions,
        (Directive.rejection? declared.directive).toList.Sublist (declared.reported d) ∧
        (declared.rejected.Sublist (declared.reported d) ↔
          declared.IsNamed ∨ declared.rejectedColumns = []) := by
  constructor
  · rintro ⟨declared, hdeclared, hrejected⟩
    exact ⟨_, build_eq_error_iff.mpr ⟨rfl, blockers_ne_nil_of_rejected_ne_nil hdeclared hrejected⟩⟩
  · intro errors h
    obtain ⟨rfl, -⟩ := build_eq_error_iff.mp h
    exact ⟨filterMap_lexError?_blockers d policy definitions, fun declared _ =>
      ⟨declared.rejection?_sublist_reported d, declared.rejected_sublist_reported_iff d⟩⟩

end DeclaredSchema

/-- The directives of the table and of its only column are broken. -/
def brokenFilm : TableDef where
  name := "film"
  directive := "index=\x7b"
  columns := [{ field := "title", kind := .string, directive := "notnull\x7d" }]

/-- The directives of both columns are broken. -/
def brokenStaff : TableDef where
  name := "staff"
  columns := [
    { field := "staff_id", kind := .number, directive := "primarykey\x7d" },
    { field := "email", kind := .string, directive := "default=\x7b" }]

/-- All that is broken is reported for the members of staff, and the directive of the table for the
films. -/
theorem build_reportsRejected_iff_filmAndStaff :
    ∃ errors, DeclaredSchema.build .postgres .warn [brokenFilm, brokenStaff] = .error errors ∧
      errors.filterMap Issue.lexError? =
        brokenFilm.reported .postgres ++ brokenStaff.reported .postgres ∧
      (Directive.rejection? brokenFilm.directive).toList.Sublist (brokenFilm.reported .postgres) ∧
      brokenStaff.rejected.Sublist (brokenStaff.reported .postgres) := by
  obtain ⟨hfails, hreports⟩ :=
    DeclaredSchema.build_reportsRejected_iff .postgres .warn [brokenFilm, brokenStaff]
  have hrejected : brokenFilm.rejected = [("index=\x7b", ⟨6, .unclosed, "index=\x7b"⟩),
      ("notnull\x7d", ⟨7, .unmatchedClosing, "notnull\x7d"⟩)] := by
    decide +kernel
  obtain ⟨errors, herrors⟩ :=
    hfails ⟨brokenFilm, by decide, hrejected ▸ List.cons_ne_nil _ _⟩
  obtain ⟨hall, heach⟩ := hreports errors herrors
  have hkept : DeclaredSchema.kept .postgres [brokenFilm, brokenStaff] =
      [brokenFilm, brokenStaff] := by
    decide
  have hnamed : brokenStaff.IsNamed := ⟨[], by decide +kernel, by decide⟩
  refine ⟨errors, herrors, ?_, (heach brokenFilm (by decide)).1,
    (heach brokenStaff (by decide)).2.mpr (Or.inl hnamed)⟩
  rw [hall, hkept, List.flatMap_cons, List.flatMap_singleton]

/-- The directive of a film's title is rejected, but nothing is said about it, since the directive
of the table is rejected too. -/
theorem build_missesTitle_film :
    ∃ errors e, DeclaredSchema.build .postgres .warn [brokenFilm] = .error errors ∧
      brokenFilm ∈ DeclaredSchema.kept .postgres [brokenFilm] ∧
      (∃ c ∈ brokenFilm.columns, c.directive = "notnull\x7d") ∧
      Directive.modifiers "notnull\x7d" = .error e ∧
      ∀ field, Issue.lex field "notnull\x7d" e ∉ errors := by
  refine ⟨[.lex "film" "index=\x7b" ⟨6, .unclosed, "index=\x7b"⟩],
    ⟨7, .unmatchedClosing, "notnull\x7d"⟩, by decide +kernel, by decide, ?_, by decide +kernel, ?_⟩
  · exact ⟨_, List.mem_singleton_self _, rfl⟩
  · intro field hmem
    have hdirective := (Issue.lex.inj (List.mem_singleton.mp hmem)).2.1
    exact absurd hdirective (by decide)

end AdditiveSchema
