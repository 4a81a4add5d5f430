import AdditiveSchema.Except
import AdditiveSchema.Proofs.DeclaredIssues

/-!
# The two policies for unknown modifiers

What a definition has wrong with it does not depend on the policy, only which of it stands in the
way. If unknown modifiers are refused, a definition with one loses its table, so that its name is
free again and references to it lead nowhere. But the unknown modifiers themselves are found in the
same order. So to refuse them is to warn about them and then to fail.

## Main definitions

* `Issue.unknownModifier?`, `Warning.unknownModifier?` : the field and the name of an unknown
  modifier.

## Main results

* `DeclaredSchema.build_deny_eq_ok_iff` : when there is a schema if unknown modifiers are refused.
* `DeclaredSchema.unknownModifiers_readTables` : the unknown modifiers do not depend on the policy.
* `DeclaredSchema.build_deny_iff` : the two policies.
-/

namespace AdditiveSchema

/-- The field and the name of the unknown modifier that the issue is about. -/
def Issue.unknownModifier? : Issue → Option (String × String)
  | .unknownModifier field modifier => some (field, modifier)
  | _ => none

/-- The field and the name of the unknown modifier that the warning is about. -/
def Warning.unknownModifier? : Warning → Option (String × String)
  | .unknownModifier field modifier => some (field, modifier)
  | _ => none

theorem Issue.unknownModifier?_of_isJoint {issue : Issue} (h : issue.isJoint = true) :
    issue.unknownModifier? = none := by
  cases issue <;> first | rfl | cases h

/-- The warning that stands for an issue is about the same modifier. -/
theorem Issue.warning?_bind_unknownModifier? (issue : Issue) :
    issue.warning?.bind Warning.unknownModifier? = issue.unknownModifier? := by
  cases issue <;> rfl

/-- Only an unknown modifier is ever let pass. -/
theorem Issue.eq_unknownModifier_of_isFatal_eq_false {policy : ModifierPolicy} {issue : Issue}
    (h : issue.isFatal policy = false) :
    ∃ field modifier, issue = .unknownModifier field modifier := by
  cases issue with
  | unknownModifier field modifier => exact ⟨field, modifier, rfl⟩
  | _ => cases h

/-- If unknown modifiers are refused, every issue stands in the way. -/
theorem Issue.isFatal_deny (issue : Issue) : issue.isFatal .deny = true := by
  cases issue <;> rfl

namespace Checked

theorem isSound_deny_iff {α : Type} {x : Checked α} : x.IsSound .deny ↔ x.issues = [] := by
  rw [List.eq_nil_iff_forall_not_mem]
  refine forall₂_congr fun issue _ => ?_
  rw [Issue.isFatal_deny issue]
  exact iff_false_intro (by decide)

end Checked

namespace DeclaredSchema

variable {d : Dialect} {policy : ModifierPolicy} {definitions : List TableDef} {s : DeclaredSchema}

/-- A definition without any issue is added in one way. -/
theorem addDefinition_congr {declared : TableDef}
    (h : (Declared.readTable d declared).issues = []) (policy policy' : ModifierPolicy)
    (tables : List Table) :
    addDefinition d policy tables declared = addDefinition d policy' tables declared := by
  simp only [addDefinition, Declared.keepSound_of_issues_eq_nil h]

/-- Definitions without any issue are read in one way. -/
theorem readTables_congr (h : ∀ declared ∈ definitions, (Declared.readTable d declared).issues = [])
    (policy policy' : ModifierPolicy) :
    readTables d policy definitions = readTables d policy' definitions := by
  have hfold (tables : List Table) : definitions.foldlM (addDefinition d policy) tables =
      definitions.foldlM (addDefinition d policy') tables := by
    induction definitions generalizing tables with
    | nil => rfl
    | cons declared rest ih =>
      rw [List.foldlM_cons, List.foldlM_cons,
        addDefinition_congr (h declared List.mem_cons_self) policy policy' tables]
      congr 1
      funext tables
      exact ih (fun declared hdeclared => h declared (List.mem_cons_of_mem _ hdeclared)) tables
  rw [readTables, readTables, hfold]

/-- If nothing at all is found under one policy, then the same is read under the other. -/
theorem readTables_eq_of_issues_eq_nil (h : (readTables d policy definitions).issues = [])
    (policy' : ModifierPolicy) :
    readTables d policy definitions = readTables d policy' definitions :=
  readTables_congr (fun _ hdeclared => List.eq_nil_iff_forall_not_mem.mpr fun _ hissue =>
    absurd (mem_issues_readTables hdeclared hissue) (h ▸ List.not_mem_nil)) policy policy'

/-- The unknown modifiers are the same whatever becomes of them. -/
theorem unknownModifiers_readTables (d : Dialect) (policy policy' : ModifierPolicy)
    (definitions : List TableDef) :
    (readTables d policy definitions).issues.filterMap Issue.unknownModifier? =
      (readTables d policy' definitions).issues.filterMap Issue.unknownModifier? := by
  have hjoint (issue : Issue) (h : issue.isJoint = true) := Issue.unknownModifier?_of_isJoint h
  rw [filterMap_issues_readTables hjoint, filterMap_issues_readTables hjoint]

/-- What a schema warns about is the unknown modifiers that were found. -/
theorem unknownModifiers_warnings (d : Dialect) (policy : ModifierPolicy)
    (definitions : List TableDef) :
    (candidate d policy definitions).warnings.filterMap Warning.unknownModifier? =
      (readTables d policy (kept d definitions)).issues.filterMap Issue.unknownModifier? := by
  simp only [candidate, List.filterMap_filterMap, Issue.warning?_bind_unknownModifier?]

theorem mem_warnings_of_isFatal_eq_false {issue : Issue}
    (hissue : issue ∈ (readTables d policy (kept d definitions)).issues)
    (h : issue.isFatal policy = false) :
    ∃ field modifier, Warning.unknownModifier field modifier ∈
      (candidate d policy definitions).warnings := by
  obtain ⟨field, modifier, rfl⟩ := Issue.eq_unknownModifier_of_isFatal_eq_false h
  exact ⟨field, modifier, List.mem_filterMap.mpr ⟨_, hissue, rfl⟩⟩

/-- A schema without such warnings is one whose definitions have nothing wrong with them. -/
theorem issues_eq_nil_of_isSound (h : (readTables d policy (kept d definitions)).IsSound policy)
    (hwarnings : ∀ field modifier, Warning.unknownModifier field modifier ∉
      (candidate d policy definitions).warnings) :
    (readTables d policy (kept d definitions)).issues = [] := by
  refine List.eq_nil_iff_forall_not_mem.mpr fun issue hissue => ?_
  obtain ⟨field, modifier, hmem⟩ := mem_warnings_of_isFatal_eq_false hissue (h issue hissue)
  exact hwarnings field modifier hmem

theorem candidate_eq_of_issues_eq_nil {policy policy' : ModifierPolicy}
    (h : (readTables d policy (kept d definitions)).issues = []) :
    candidate d policy definitions = candidate d policy' definitions := by
  simp only [candidate, readTables_eq_of_issues_eq_nil h policy']

theorem warnings_candidate_of_issues_eq_nil
    (h : (readTables d policy (kept d definitions)).issues = []) :
    (candidate d policy definitions).warnings = [] := by
  simp only [candidate, h, List.filterMap_nil]

/-- A schema of definitions whose unknown modifiers are refused. -/
theorem build_deny_eq_ok_iff :
    build d .deny definitions = .ok s ↔
      (readTables d .deny (kept d definitions)).issues = [] ∧
        s = candidate d .deny definitions := by
  rw [build_eq_ok_iff, Checked.isSound_deny_iff]

/-- A schema of definitions whose unknown modifiers are refused is one if they are let pass, and it
has nothing to warn about. -/
theorem build_warn_of_build_deny (h : build d .deny definitions = .ok s) :
    build d .warn definitions = .ok s ∧ s.warnings = [] := by
  obtain ⟨hnil, rfl⟩ := build_deny_eq_ok_iff.mp h
  have hread := readTables_eq_of_issues_eq_nil hnil .warn
  have hsound : (readTables d .warn (kept d definitions)).IsSound .warn := by
    intro issue hissue
    rw [← hread, hnil] at hissue
    cases hissue
  exact ⟨build_eq_ok_iff.mpr ⟨hsound, candidate_eq_of_issues_eq_nil hnil⟩,
    warnings_candidate_of_issues_eq_nil hnil⟩

/-- A schema without warnings about unknown modifiers is one if these are refused. -/
theorem build_deny_of_build_warn (h : build d .warn definitions = .ok s)
    (hwarnings : ∀ field modifier, Warning.unknownModifier field modifier ∉ s.warnings) :
    build d .deny definitions = .ok s := by
  obtain ⟨hsound, rfl⟩ := build_eq_ok_iff.mp h
  have hnil := issues_eq_nil_of_isSound hsound hwarnings
  have hread := readTables_eq_of_issues_eq_nil hnil .deny
  exact build_deny_eq_ok_iff.mpr ⟨hread ▸ hnil, candidate_eq_of_issues_eq_nil hnil⟩

/-- If unknown modifiers are refused, all of them are reported. -/
theorem unknownModifiers_blockers_deny (d : Dialect) (definitions : List TableDef) :
    (blockers d .deny definitions).filterMap Issue.unknownModifier? =
      (candidate d .warn definitions).warnings.filterMap Warning.unknownModifier? := by
  have hall : blockers d .deny definitions = (readTables d .deny (kept d definitions)).issues :=
    List.filter_eq_self.mpr fun issue _ => Issue.isFatal_deny issue
  rw [hall, unknownModifiers_warnings, unknownModifiers_readTables d .deny .warn]

/-- Where there is a warning about an unknown modifier, there is an error if these are refused. -/
theorem exists_build_deny_eq_error (h : build d .warn definitions = .ok s)
    (hunknown : ∃ field modifier, Warning.unknownModifier field modifier ∈ s.warnings) :
    ∃ errors, build d .deny definitions = .error errors ∧
      errors.filterMap Issue.unknownModifier? =
        s.warnings.filterMap Warning.unknownModifier? := by
  obtain ⟨-, rfl⟩ := build_eq_ok_iff.mp h
  have hsame := unknownModifiers_blockers_deny d definitions
  refine ⟨_, build_eq_error_iff.mpr ⟨rfl, fun hnil => ?_⟩, hsame⟩
  -- The warnings would be about nothing.
  obtain ⟨field, modifier, hmem⟩ := hunknown
  have hmem : (field, modifier) ∈ (candidate d .warn definitions).warnings.filterMap
      Warning.unknownModifier? := List.mem_filterMap.mpr ⟨_, hmem, rfl⟩
  rw [← hsame, hnil] at hmem
  cases hmem

/-- **The two policies.** If unknown modifiers are refused, there is a schema just if there is one
without warnings about them otherwise, and it is the same one. A schema with such warnings turns
into a failure that reports the same modifiers of the same fields, in the same order. -/
theorem build_deny_iff (d : Dialect) (definitions : List TableDef) :
    (∀ s, build d .deny definitions = .ok s ↔ build d .warn definitions = .ok s ∧
      ∀ field modifier, Warning.unknownModifier field modifier ∉ s.warnings) ∧
    (∀ s, build d .deny definitions = .ok s → s.warnings = []) ∧
    ∀ s, build d .warn definitions = .ok s →
      (∃ field modifier, Warning.unknownModifier field modifier ∈ s.warnings) →
      ∃ errors, build d .deny definitions = .error errors ∧
        errors.filterMap Issue.unknownModifier? =
          s.warnings.filterMap Warning.unknownModifier? := by
  refine ⟨fun s => ⟨fun h => ?_, fun ⟨h, hwarnings⟩ => build_deny_of_build_warn h hwarnings⟩,
    fun s h => (build_warn_of_build_deny h).2, fun s h => exists_build_deny_eq_error h⟩
  obtain ⟨hwarn, hnil⟩ := build_warn_of_build_deny h
  exact ⟨hwarn, fun field modifier => hnil ▸ List.not_mem_nil⟩

end DeclaredSchema

/-- Members of staff belong to a store, and a modifier of the store is misspelled. -/
def misspelledStoreDefinitions : List TableDef := [
  { name := "staff"
    columns := [{ field := "store_id", kind := .number, directive := "references=store" }] },
  { name := "store"
    columns := [{ field := "store_id", kind := .number, directive := "primarykey uniqe" }] }]

/-- The misspelled modifier costs the store its table, so that the reference to it is reported too;
but the modifier is reported just as it is warned about. -/
theorem build_deny_iff_misspelledStore :
    ∃ s errors, DeclaredSchema.build .postgres .warn misspelledStoreDefinitions = .ok s ∧
      s.warnings = [.unknownModifier "store.store_id" "uniqe"] ∧
      DeclaredSchema.build .postgres .deny misspelledStoreDefinitions = .error errors ∧
      errors.filterMap Issue.unknownModifier? = [("store.store_id", "uniqe")] ∧
      Issue.unresolvedReference "staff.store_id" "store" "table is not declared" ∈ errors := by
  obtain ⟨s, hwarn, hwarnings⟩ : ∃ s, DeclaredSchema.build .postgres .warn
      misspelledStoreDefinitions = .ok s ∧
      s.warnings = [.unknownModifier "store.store_id" "uniqe"] := by
    decide +kernel
  obtain ⟨errors, hdeny, hsame⟩ :=
    (DeclaredSchema.build_deny_iff .postgres misspelledStoreDefinitions).2.2 s hwarn
      ⟨"store.store_id", "uniqe", by rw [hwarnings]; exact List.mem_singleton_self _⟩
  rw [hwarnings] at hsame
  have herrors : DeclaredSchema.build .postgres .deny misspelledStoreDefinitions = .error
      [.unknownModifier "store.store_id" "uniqe",
        .unresolvedReference "staff.store_id" "store" "table is not declared"] := by
    decide +kernel
  cases hdeny.symm.trans herrors
  exact ⟨s, _, hwarn, hwarnings, hdeny, hsame, by simp⟩

end AdditiveSchema
