import AdditiveSchema.Proofs.Declared

/-!
# The issues of declared tables

Each definition is read on its own, and what is wrong with it is found whatever the other
definitions say and whatever becomes of unknown modifiers. Only then are the tables put together,
which adds issues of two kinds: a name that is taken, and a reference that leads nowhere. So the
issues of all other kinds are those of the definitions, in their order.

## Main definitions

* `Issue.isJoint` : the issue is about more than one table.
* `DeclaredSchema.kept` : the definitions that the dialect has.

## Main results

* `DeclaredSchema.filterMap_issues_readTables` : the issues of single definitions.
* `DeclaredSchema.build_eq_ok_iff`, `DeclaredSchema.build_eq_error_iff` : when there is a schema.
-/

namespace AdditiveSchema

/-- The issue comes up when the tables are put together. -/
def Issue.isJoint : Issue → Bool
  | .duplicateTable _ | .unresolvedReference .. => true
  | _ => false

namespace Checked

variable {α β γ : Type}

/-- What is collected of the issues of all steps is what is collected of each step, if that does not
depend on the state. -/
theorem filterMap_issues_foldlM {f : Issue → Option γ} {step : β → α → Checked β}
    {found : α → List γ} (h : ∀ b a, (step b a).issues.filterMap f = found a) (as : List α)
    (b : β) :
    (as.foldlM step b).issues.filterMap f = as.flatMap found := by
  induction as generalizing b with
  | nil => rfl
  | cons a as ih =>
    rw [List.foldlM_cons, issues_bind, List.filterMap_append, h, ih, List.flatMap_cons]

theorem mem_issues_foldlM {step : β → α → Checked β} {as : List α} {a : α} (ha : a ∈ as)
    {issue : Issue} (h : ∀ b, issue ∈ (step b a).issues) (b : β) :
    issue ∈ (as.foldlM step b).issues := by
  induction as generalizing b with
  | nil => cases ha
  | cons c as ih =>
    rw [List.foldlM_cons, issues_bind, List.mem_append]
    rcases List.mem_cons.mp ha with rfl | ha
    · exact Or.inl (h b)
    · exact Or.inr (ih ha _)

end Checked

namespace Declared

variable {policy : ModifierPolicy} {tables : List Table}

theorem keepSound_of_issues_eq_nil {t : Checked (Option Table)} (h : t.issues = []) :
    keepSound policy t = t := by
  rw [keepSound, h]
  rfl

theorem isJoint_of_mem_resolveReference {origin : Table} {field : String} {fk : ForeignKey}
    {issue : Issue} (h : issue ∈ (resolveReference tables origin field fk).issues) :
    issue.isJoint = true := by
  unfold resolveReference at h
  cases htarget : findTarget tables origin fk.table with
  | none =>
    simp only [htarget] at h
    split at h
    · cases h
    · rw [List.mem_singleton.mp h]
      rfl
  | some t =>
    simp only [htarget] at h
    split at h
    · cases h
    · split at h
      · cases h
      · rw [List.mem_singleton.mp h]
        rfl

/-- Filling in references finds joint issues only. -/
theorem isJoint_of_mem_resolveReferences {issue : Issue}
    (h : issue ∈ (resolveReferences tables).issues) : issue.isJoint = true := by
  rw [resolveReferences, Checked.issues_mapM] at h
  obtain ⟨t, -, h⟩ := List.mem_flatMap.mp h
  rw [Checked.issues_bind, Checked.issues_pure, List.append_nil, Checked.issues_mapM] at h
  obtain ⟨c, -, h⟩ := List.mem_flatMap.mp h
  unfold resolveColumn at h
  split at h
  · cases h
  · rw [Checked.issues_bind, Checked.issues_pure, List.append_nil] at h
    exact isJoint_of_mem_resolveReference h

end Declared

namespace DeclaredSchema

variable {d : Dialect} {policy : ModifierPolicy} {definitions : List TableDef}

/-- The definitions that the dialect has. -/
def kept (d : Dialect) (definitions : List TableDef) : List TableDef :=
  definitions.filter fun declared => !declared.isSkippedIn d

theorem mem_kept_iff {declared : TableDef} :
    declared ∈ kept d definitions ↔ declared ∈ definitions ∧ declared.isSkippedIn d = false := by
  simp [kept]

/-- Adding a table finds the issues of its definition first, and then joint ones. -/
theorem exists_issues_addDefinition (d : Dialect) (policy : ModifierPolicy) (tables : List Table)
    (declared : TableDef) :
    ∃ joint, (addDefinition d policy tables declared).issues =
      (Declared.readTable d declared).issues ++ joint ∧ ∀ issue ∈ joint, issue.isJoint = true := by
  rw [addDefinition, Checked.issues_bind, Declared.issues_keepSound]
  refine ⟨_, rfl, fun issue h => ?_⟩
  split at h
  · cases h
  · split at h
    · rw [List.mem_singleton.mp h]
      rfl
    · cases h

/-- **The issues of single definitions** are found in their order, whatever the policy. -/
theorem filterMap_issues_readTables {γ : Type} {f : Issue → Option γ}
    (hf : ∀ issue, issue.isJoint = true → f issue = none) (d : Dialect) (policy : ModifierPolicy)
    (definitions : List TableDef) :
    (readTables d policy definitions).issues.filterMap f =
      definitions.flatMap fun declared => (Declared.readTable d declared).issues.filterMap f := by
  have hjoint {issues : List Issue} (h : ∀ issue ∈ issues, issue.isJoint = true) :
      issues.filterMap f = [] :=
    List.filterMap_eq_nil_iff.mpr fun issue hissue => hf issue (h issue hissue)
  rw [readTables, Checked.issues_bind, List.filterMap_append,
    hjoint fun _ => Declared.isJoint_of_mem_resolveReferences, List.append_nil]
  refine Checked.filterMap_issues_foldlM (fun tables declared => ?_) definitions []
  obtain ⟨joint, hissues, h⟩ := exists_issues_addDefinition d policy tables declared
  rw [hissues, List.filterMap_append, hjoint h, List.append_nil]

theorem mem_issues_readTables {declared : TableDef} (hdeclared : declared ∈ definitions)
    {issue : Issue} (h : issue ∈ (Declared.readTable d declared).issues) :
    issue ∈ (readTables d policy definitions).issues := by
  refine List.mem_append_left _ (Checked.mem_issues_foldlM hdeclared (fun tables => ?_) [])
  obtain ⟨joint, hissues, -⟩ := exists_issues_addDefinition d policy tables declared
  rw [hissues]
  exact List.mem_append_left _ h

/-- What stands in the way of the schema. -/
def blockers (d : Dialect) (policy : ModifierPolicy) (definitions : List TableDef) : List Issue :=
  (readTables d policy (kept d definitions)).issues.filter (Issue.isFatal policy)

/-- The schema, if nothing stands in its way. -/
def candidate (d : Dialect) (policy : ModifierPolicy) (definitions : List TableDef) :
    DeclaredSchema where
  dialect := d
  tables := (readTables d policy (kept d definitions)).value
  skipped := (definitions.filter (·.isSkippedIn d)).map (skippedName d)
  warnings := (readTables d policy (kept d definitions)).issues.filterMap Issue.warning?

theorem build_eq (d : Dialect) (policy : ModifierPolicy) (definitions : List TableDef) :
    build d policy definitions =
      if blockers d policy definitions = [] then .ok (candidate d policy definitions)
      else .error (blockers d policy definitions) := by
  simp only [build, List.partition_eq_filter_filter]
  split
  · rename_i hnil
    exact (if_pos hnil).symm
  · rename_i hne
    exact (if_neg hne).symm

theorem blockers_eq_nil_iff :
    blockers d policy definitions = [] ↔
      (readTables d policy (kept d definitions)).IsSound policy := by
  simp only [blockers, Checked.IsSound, List.filter_eq_nil_iff, Bool.not_eq_true]

/-- **When there is a schema:** nothing of what is found stands in its way. -/
theorem build_eq_ok_iff {s : DeclaredSchema} :
    build d policy definitions = .ok s ↔
      (readTables d policy (kept d definitions)).IsSound policy ∧
        s = candidate d policy definitions := by
  rw [build_eq, ← blockers_eq_nil_iff]
  split
  · rename_i hnil
    simp [hnil, eq_comm]
  · rename_i hne
    simp [hne]

/-- **When there is none:** all that stands in its way is reported. -/
theorem build_eq_error_iff {errors : List Issue} :
    build d policy definitions = .error errors ↔
      errors = blockers d policy definitions ∧ errors ≠ [] := by
  rw [build_eq]
  split
  · rename_i hnil
    simp [hnil]
  · rename_i hne
    constructor
    · intro h
      cases h
      exact ⟨rfl, hne⟩
    · rintro ⟨rfl, -⟩
      rfl

variable {s : DeclaredSchema}

theorem dialect_of_build (h : build d policy definitions = .ok s) : s.dialect = d := by
  obtain ⟨-, rfl⟩ := build_eq_ok_iff.mp h
  rfl

/-- The warnings of a declared schema are about unknown modifiers. -/
theorem warnings_of_build (h : build d policy definitions = .ok s) {w : Warning}
    (hw : w ∈ s.warnings) : ∃ field modifier, w = .unknownModifier field modifier := by
  obtain ⟨-, rfl⟩ := build_eq_ok_iff.mp h
  obtain ⟨issue, -, hissue⟩ := List.mem_filterMap.mp hw
  unfold Issue.warning? at hissue
  split at hissue <;> cases hissue
  exact ⟨_, _, rfl⟩

/-- Nothing stands in the way of reading the definitions of a declared schema. -/
theorem isSound_of_build (h : build d policy definitions = .ok s) :
    ((kept d definitions).foldlM (addDefinition d policy) []).IsSound policy :=
  (Checked.isSound_bind.mp (build_eq_ok_iff.mp h).1).1

end DeclaredSchema

end AdditiveSchema
