import AdditiveSchema.Proofs.Reconcile
import AdditiveSchema.Run.Executor

/-!
# Runs of a plan

A run goes through the actions of its plan and through the statements of each action. But for the
log, this is one walk through the statements of the whole plan. A dry run prints all of them. Any
other run gives them to the database one by one, up to the first that is rejected.

## Main definitions

* `Outcome.withoutLog` : what a run does apart from its log.
* `Database.Accepts` : the database rejects none of the statements, given in this order.

## Main results

* `Database.withoutLog_foldlM_runAction` : a plan is run statement by statement.
* `Database.foldlM_runStatement_dry`, `Database.foldlM_runStatement_of_accepts`,
  `Database.foldlM_runStatement_of_rejects` : what becomes of the statements.
* `Database.apply_dry`, `Database.apply_of_accepts`, `Database.apply_of_rejects` : what is seen of a
  run.
* `Database.apply_runsPrefix` : what a run does for each plan and each database.
-/

namespace AdditiveSchema

/-! ### Outcomes apart from their log -/

/-- The event is a line of the log. -/
def Event.isLog : Event → Bool
  | .log _ _ _ => true
  | .print _ | .send _ => false

namespace Outcome

variable {α β : Type}

/-- What the run does apart from its log. -/
def withoutLog (x : Outcome α) : Outcome α :=
  ⟨x.events.filter (!·.isLog), x.result⟩

theorem result_withoutLog (x : Outcome α) : x.withoutLog.result = x.result := rfl

theorem sent_withoutLog (x : Outcome α) : x.withoutLog.sent = x.sent := by
  rw [sent, withoutLog, List.filterMap_filter, sent]
  exact List.filterMap_congr fun event _ => by cases event <;> rfl

theorem printed_withoutLog (x : Outcome α) : x.withoutLog.printed = x.printed := by
  rw [printed, withoutLog, List.filterMap_filter, printed]
  exact List.filterMap_congr fun event _ => by cases event <;> rfl

/-- What is seen of a run apart from its log. -/
theorem observed_of_withoutLog {x y : Outcome α} (h : x.withoutLog = y) :
    x.sent = y.sent ∧ x.printed = y.printed ∧ x.result = y.result := by
  rw [← h, sent_withoutLog, printed_withoutLog, result_withoutLog]
  exact ⟨rfl, rfl, rfl⟩

theorem withoutLog_bind (x : Outcome α) (f : α → Outcome β) :
    (x >>= f).withoutLog = x.withoutLog >>= fun a => (f a).withoutLog := by
  obtain ⟨events, result⟩ := x
  cases result with
  | error e => rfl
  | ok a => simp [bind, withoutLog]

theorem withoutLog_log (level : LogLevel) (message : String) (fields : List (String × String)) :
    (emit (.log level message fields)).withoutLog = pure () := rfl

theorem withoutLog_foldlM {f : β → α → Outcome β} (hf : ∀ b a, (f b a).withoutLog = f b a)
    (as : List α) (b : β) : (as.foldlM f b).withoutLog = as.foldlM f b := by
  induction as generalizing b with
  | nil => rfl
  | cons a as ih =>
    rw [List.foldlM_cons, withoutLog_bind, hf]
    simp only [ih]

theorem ofExcept_ok_bind {ε : Type} (wrap : ε → RunError) (a : α) (f : α → Outcome β) :
    ofExcept wrap (.ok a) >>= f = f a :=
  pure_bind a f

end Outcome

namespace Database

variable {db : Database} {d : Dialect} {dryRun : Bool} {done statements : List Statement}
  {s : Statement} {fault : Fault}

/-! ### One statement -/

theorem runStatement_dry (db : Database) (done : List Statement) (s : Statement) :
    db.runStatement true done s = ⟨[.print (s.sql ++ ";")], .ok (done ++ [s])⟩ := rfl

/-- A statement that is not rejected is done. -/
theorem runStatement_of_accepts (h : db.behaviour (done.map (·.sql)) s.sql = none) :
    db.runStatement false done s = ⟨[.send s.sql], .ok (done ++ [s])⟩ := by
  rw [runStatement, if_neg Bool.false_ne_true, execute, h]
  rfl

/-- A statement that is rejected ends the run. -/
theorem runStatement_of_rejects (h : db.behaviour (done.map (·.sql)) s.sql = some fault) :
    db.runStatement false done s = ⟨[.send s.sql], .error (.statement s.sql fault)⟩ := by
  rw [runStatement, if_neg Bool.false_ne_true, execute, h]
  rfl

theorem withoutLog_runStatement (db : Database) (dryRun : Bool) (done : List Statement)
    (s : Statement) :
    (db.runStatement dryRun done s).withoutLog = db.runStatement dryRun done s := by
  cases dryRun with
  | true => rfl
  | false =>
    cases h : db.behaviour (done.map (·.sql)) s.sql with
    | none =>
      rw [runStatement_of_accepts h]
      rfl
    | some fault =>
      rw [runStatement_of_rejects h]
      rfl

/-! ### From actions to statements -/

/-- An action is run statement by statement. -/
theorem withoutLog_runAction {a : Action} (h : a.statements d = .ok statements)
    (done : List Statement) :
    (db.runAction d dryRun done a).withoutLog =
      statements.foldlM (db.runStatement dryRun) done := by
  rw [runAction, Outcome.info, Outcome.withoutLog_bind, Outcome.withoutLog_log, pure_bind, h,
    Outcome.ofExcept_ok_bind, Outcome.withoutLog_foldlM (withoutLog_runStatement db dryRun)]

/-- **A plan is run statement by statement.** -/
theorem withoutLog_foldlM_runAction {p : Plan} (h : p.statements d = .ok statements)
    (done : List Statement) :
    (p.actions.foldlM (db.runAction d dryRun) done).withoutLog =
      statements.foldlM (db.runStatement dryRun) done := by
  obtain ⟨blocks, hblocks, rfl⟩ := Except.map_eq_ok_iff.mp h
  have hactions := Except.forall₂_of_mapM_eq_ok hblocks
  generalize p.actions = actions at hactions
  clear h hblocks
  induction hactions generalizing done with
  | nil => rfl
  | cons ha _ ih =>
    rw [List.foldlM_cons, Outcome.withoutLog_bind, withoutLog_runAction ha, List.flatten_cons,
      List.foldlM_append]
    simp only [ih]

/-! ### Rows of statements -/

/-- **A dry run** prints all statements. -/
theorem foldlM_runStatement_dry (db : Database) (done statements : List Statement) :
    statements.foldlM (db.runStatement true) done =
      ⟨statements.map fun s => .print (s.sql ++ ";"), .ok (done ++ statements)⟩ := by
  induction statements generalizing done with
  | nil => simp [pure]
  | cons s statements ih =>
    rw [List.foldlM_cons, runStatement_dry, Outcome.mk_ok_bind, ih, List.append_assoc]
    rfl

/-- The database rejects none of the statements, each of which follows those in front of it. -/
def Accepts (db : Database) (statements : List Statement) : Prop :=
  ∀ before s after, statements = before ++ s :: after →
    db.behaviour (before.map (·.sql)) s.sql = none

theorem accepts_concat_iff : db.Accepts (statements ++ [s]) ↔
    db.Accepts statements ∧ db.behaviour (statements.map (·.sql)) s.sql = none := by
  constructor
  · intro h
    refine ⟨fun before s' after heq => h before s' (after ++ [s]) ?_, h statements s [] rfl⟩
    rw [heq, List.append_assoc, List.cons_append]
  · rintro ⟨hstatements, hlast⟩ before s' after heq
    rcases List.eq_nil_or_concat' after with rfl | ⟨after, last, rfl⟩
    · obtain ⟨rfl, rfl⟩ := List.append_singleton_inj.mp heq
      exact hlast
    · rw [← List.cons_append, ← List.append_assoc] at heq
      exact hstatements before s' after (List.append_singleton_inj.mp heq).1

/-- Either no statement is rejected, or there is a first one that is. -/
theorem accepts_or_exists_rejects (db : Database) (statements : List Statement) :
    db.Accepts statements ∨ ∃ before s after fault, statements = before ++ s :: after ∧
      db.Accepts before ∧ db.behaviour (before.map (·.sql)) s.sql = some fault := by
  induction statements using List.reverseRecOn with
  | nil => exact Or.inl (by simp [Accepts])
  | append_singleton statements last ih =>
    rcases ih with h | ⟨before, s, after, fault, rfl, hbefore, hfault⟩
    · cases hlast : db.behaviour (statements.map (·.sql)) last.sql with
      | none => exact Or.inl (accepts_concat_iff.mpr ⟨h, hlast⟩)
      | some fault => exact Or.inr ⟨statements, last, [], fault, rfl, h, hlast⟩
    · exact Or.inr ⟨before, s, after ++ [last], fault, by simp, hbefore, hfault⟩

/-- **Statements that the database accepts** are all given to it. -/
theorem foldlM_runStatement_of_accepts (h : db.Accepts (done ++ statements)) :
    statements.foldlM (db.runStatement false) done =
      ⟨statements.map fun s => .send s.sql, .ok (done ++ statements)⟩ := by
  induction statements generalizing done with
  | nil => simp [pure]
  | cons s statements ih =>
    have hs := h done s statements rfl
    rw [List.append_cons] at h ⊢
    rw [List.foldlM_cons, runStatement_of_accepts hs, Outcome.mk_ok_bind, ih h]
    rfl

/-- **A statement that the database rejects** is the last one that it is given. -/
theorem foldlM_runStatement_of_rejects {before after : List Statement} (h : db.Accepts before)
    (hfault : db.behaviour (before.map (·.sql)) s.sql = some fault) :
    (before ++ s :: after).foldlM (db.runStatement false) [] =
      ⟨(before ++ [s]).map fun s => .send s.sql, .error (.statement s.sql fault)⟩ := by
  rw [List.foldlM_append, foldlM_runStatement_of_accepts h, Outcome.mk_ok_bind, List.nil_append,
    List.foldlM_cons, runStatement_of_rejects hfault, Outcome.mk_error_bind, List.map_append]
  rfl

/-! ### Runs -/

variable {declared : DeclaredSchema} {detectDrift : Bool} {p : Plan} {e : RunError}

theorem plan_of_ne (h : declared.dialect ≠ db.server.dialect) (detectDrift : Bool) :
    db.plan declared detectDrift =
      .fail (.dialectMismatch declared.dialect db.server.dialect) := by
  rw [plan, if_pos h]
  rfl

theorem plan_of_eq (h : declared.dialect = db.server.dialect) (detectDrift : Bool) :
    db.plan declared detectDrift = (do
      let catalog ← Outcome.ofExcept .access db.server.snapshot
      let plan ← Outcome.ofExcept .plan (reconcile catalog.view declared detectDrift)
      Outcome.info "Computed plan"
        [("actions", toString plan.actions.length), ("warnings", toString plan.warnings.length)]
      return plan) := by
  rw [plan, if_neg (not_not.mpr h)]

/-- Planning does nothing but write to the log. -/
theorem withoutLog_plan (db : Database) (declared : DeclaredSchema) (detectDrift : Bool) :
    (db.plan declared detectDrift).withoutLog = ⟨[], (db.plan declared detectDrift).result⟩ := by
  by_cases h : declared.dialect = db.server.dialect
  · rw [plan_of_eq h]
    cases db.server.snapshot with
    | error e => rfl
    | ok catalog =>
      rw [Outcome.ofExcept_ok_bind]
      cases reconcile catalog.view declared detectDrift with
      | error e => rfl
      | ok p => rfl
  · rw [plan_of_ne h]
    rfl

/-- A plan is one that reconciliation made. -/
theorem exists_reconcile_of_plan (h : (db.plan declared detectDrift).result = .ok p) :
    ∃ catalog : Catalog, reconcile catalog.view declared detectDrift = .ok p := by
  by_cases hdialect : declared.dialect = db.server.dialect
  · rw [plan_of_eq hdialect] at h
    cases hcatalog : db.server.snapshot with
    | error e =>
      rw [hcatalog] at h
      cases h
    | ok catalog =>
      rw [hcatalog, Outcome.ofExcept_ok_bind] at h
      cases hplan : reconcile catalog.view declared detectDrift with
      | error e =>
        rw [hplan] at h
        cases h
      | ok p' =>
        rw [hplan] at h
        cases h
        exact ⟨catalog, hplan⟩
  · rw [plan_of_ne hdialect] at h
    cases h

theorem withoutLog_logWarnings (p : Plan) : p.logWarnings.withoutLog = pure () := by
  rw [Plan.logWarnings]
  induction p.warnings with
  | nil => rfl
  | cons w warnings ih =>
    rw [List.forM, Outcome.withoutLog_bind, ih]
    rfl

/-- Apart from its log, a run plans and then goes through the actions of its plan. -/
theorem withoutLog_apply (db : Database) (declared : DeclaredSchema) (detectDrift dryRun : Bool) :
    (db.apply declared detectDrift dryRun).withoutLog = (do
      let plan ← (⟨[], (db.plan declared detectDrift).result⟩ : Outcome Plan)
      let statements ←
        (plan.actions.foldlM (db.runAction declared.dialect dryRun) []).withoutLog
      return { plan, statements, dryRun }) := by
  rw [apply, Outcome.withoutLog_bind, withoutLog_plan]
  congr 1
  funext p
  rw [Outcome.withoutLog_bind, withoutLog_logWarnings, pure_bind]
  split
  · dsimp only
    rw [Outcome.info, Outcome.withoutLog_bind, Outcome.withoutLog_log, pure_bind,
      Outcome.withoutLog_bind]
    rfl
  · exact Outcome.withoutLog_bind _ _

theorem withoutLog_apply_of_error (hplan : (db.plan declared detectDrift).result = .error e)
    (dryRun : Bool) : (db.apply declared detectDrift dryRun).withoutLog = ⟨[], .error e⟩ := by
  rw [withoutLog_apply, hplan]
  rfl

theorem withoutLog_apply_of_ok (hplan : (db.plan declared detectDrift).result = .ok p)
    (h : p.statements declared.dialect = .ok statements) (dryRun : Bool) :
    (db.apply declared detectDrift dryRun).withoutLog = (do
      let statements ← statements.foldlM (db.runStatement dryRun) []
      return { plan := p, statements, dryRun }) := by
  rw [withoutLog_apply, hplan, Outcome.mk_ok_bind, withoutLog_foldlM_runAction h]
  rfl

/-- A dry run shows the statements of its plan. -/
theorem apply_dry (hplan : (db.plan declared detectDrift).result = .ok p)
    (h : p.statements declared.dialect = .ok statements) :
    (db.apply declared detectDrift true).sent = [] ∧
      (db.apply declared detectDrift true).printed = statements.map (·.sql ++ ";") ∧
      (db.apply declared detectDrift true).result = .ok ⟨p, statements, true⟩ := by
  have hrun := withoutLog_apply_of_ok hplan h true
  rw [foldlM_runStatement_dry, Outcome.mk_ok_bind] at hrun
  obtain ⟨hsent, hprinted, hresult⟩ := Outcome.observed_of_withoutLog hrun
  refine ⟨hsent.trans ?_, hprinted.trans ?_, hresult⟩
  · simp [pure, Outcome.sent, Event.sent?]
  · simp [pure, Outcome.printed, Event.printed?, Function.comp_def]

/-- A run whose statements are accepted gives all of them to the database. -/
theorem apply_of_accepts (hplan : (db.plan declared detectDrift).result = .ok p)
    (h : p.statements declared.dialect = .ok statements) (haccepts : db.Accepts statements) :
    (db.apply declared detectDrift false).sent = statements.map (·.sql) ∧
      (db.apply declared detectDrift false).printed = [] ∧
      (db.apply declared detectDrift false).result = .ok ⟨p, statements, false⟩ := by
  have hrun := withoutLog_apply_of_ok hplan h false
  rw [foldlM_runStatement_of_accepts haccepts, Outcome.mk_ok_bind] at hrun
  obtain ⟨hsent, hprinted, hresult⟩ := Outcome.observed_of_withoutLog hrun
  refine ⟨hsent.trans ?_, hprinted.trans ?_, hresult⟩
  · simp [pure, Outcome.sent, Event.sent?, Function.comp_def]
  · simp [pure, Outcome.printed, Event.printed?]

/-- A run with a statement that is rejected ends with the first such one. -/
theorem apply_of_rejects {before after : List Statement}
    (hplan : (db.plan declared detectDrift).result = .ok p)
    (h : p.statements declared.dialect = .ok (before ++ s :: after)) (hbefore : db.Accepts before)
    (hfault : db.behaviour (before.map (·.sql)) s.sql = some fault) :
    (db.apply declared detectDrift false).sent = before.map (·.sql) ++ [s.sql] ∧
      (db.apply declared detectDrift false).printed = [] ∧
      (db.apply declared detectDrift false).result = .error (.statement s.sql fault) := by
  have hrun := withoutLog_apply_of_ok hplan h false
  rw [foldlM_runStatement_of_rejects hbefore hfault, Outcome.mk_error_bind] at hrun
  obtain ⟨hsent, hprinted, hresult⟩ := Outcome.observed_of_withoutLog hrun
  refine ⟨hsent.trans ?_, hprinted.trans ?_, hresult⟩
  · simp [Outcome.sent, Event.sent?, Function.comp_def]
  · simp [Outcome.printed, Event.printed?]

/-- **What a run does.** Let a schema be declared, and let the database reject whatever statements
it likes, given those before them. If the schema is declared for another dialect, there is no plan;
and if there is no plan, the database is given nothing, nothing is printed, and the run ends with
the error of the planning. Every plan has statements, action by action. A dry run gives none of them
to the database, prints each with a semicolon behind it, and reports all of them. Any other run
prints nothing. It gives all statements to the database, in order, and reports them, if none of them
is rejected. Else it gives those before the first that is rejected, and this one, and ends with an
error that has its text. -/
theorem apply_runsPrefix (db : Database) (declared : DeclaredSchema) (detectDrift : Bool) :
    let run := db.apply declared detectDrift
    (declared.dialect ≠ db.server.dialect → (db.plan declared detectDrift).result =
      .error (.dialectMismatch declared.dialect db.server.dialect)) ∧
    (∀ e, (db.plan declared detectDrift).result = .error e → ∀ dryRun,
      (run dryRun).sent = [] ∧ (run dryRun).printed = [] ∧ (run dryRun).result = .error e) ∧
    ∀ p, (db.plan declared detectDrift).result = .ok p →
      ∃ statements, p.statements declared.dialect = .ok statements ∧
        ((run true).sent = [] ∧ (run true).printed = statements.map (·.sql ++ ";") ∧
          (run true).result = .ok ⟨p, statements, true⟩) ∧
        (run false).printed = [] ∧
        (db.Accepts statements ∧ (run false).sent = statements.map (·.sql) ∧
            (run false).result = .ok ⟨p, statements, false⟩ ∨
          ∃ before s after fault, statements = before ++ s :: after ∧ db.Accepts before ∧
            db.behaviour (before.map (·.sql)) s.sql = some fault ∧
            (run false).sent = before.map (·.sql) ++ [s.sql] ∧
            (run false).result = .error (.statement s.sql fault)) := by
  intro run
  refine ⟨fun h => congrArg Outcome.result (plan_of_ne h detectDrift), fun e hplan dryRun => ?_,
    fun p hplan => ?_⟩
  · exact Outcome.observed_of_withoutLog (withoutLog_apply_of_error hplan dryRun)
  · obtain ⟨catalog, hreconcile⟩ := exists_reconcile_of_plan hplan
    obtain ⟨statements, hstatements⟩ :=
      Except.isOk_iff.mp (Reconcile.isOk_statements_of_reconcile hreconcile)
    refine ⟨statements, hstatements, apply_dry hplan hstatements, ?_⟩
    rcases accepts_or_exists_rejects db statements with
      haccepts | ⟨before, s, after, fault, rfl, hbefore, hfault⟩
    · obtain ⟨hsent, hprinted, hresult⟩ := apply_of_accepts hplan hstatements haccepts
      exact ⟨hprinted, Or.inl ⟨haccepts, hsent, hresult⟩⟩
    · obtain ⟨hsent, hprinted, hresult⟩ := apply_of_rejects hplan hstatements hbefore hfault
      exact ⟨hprinted, Or.inr ⟨before, s, after, fault, rfl, hbefore, hfault, hsent, hresult⟩⟩

end Database

/-- A database whose disk is full behind its first statement creates the table of films and rejects
its index. -/
theorem apply_runsPrefix_filmIndex :
    let film : Table := {
      schema := "main"
      name := "film"
      columns := [{ name := "title", columnType := "TEXT" }]
      indices := [({ schema := "main", name := "film_title_idx" } : Index).addColumn "title"] }
    let declared : DeclaredSchema := { dialect := .sqlite, tables := [film] }
    let db : Database := {
      server := { dialect := .sqlite, describe := fun n => { schema := n.schema, name := n.name } }
      behaviour := fun before _ => if before.isEmpty then none else some ⟨"disk full"⟩ }
    let table := "CREATE TABLE \"main\".\"film\" (\n    \"title\" TEXT\n)"
    let index := "CREATE INDEX \"main\".\"film_title_idx\" ON \"film\" (\"title\")"
    (db.plan declared true).result = .ok { actions := [.createTable film] } ∧
      (db.apply declared true true).printed = [table ++ ";", index ++ ";"] ∧
      (db.apply declared true false).sent = [table, index] ∧
      (db.apply declared true false).result = .error (.statement index ⟨"disk full"⟩) := by
  intro film declared db table index
  have hplan : (db.plan declared true).result = .ok { actions := [.createTable film] } :=
    Except.toOption_eq_some_iff.mp (by decide +kernel)
  obtain ⟨-, -, hrun⟩ := db.apply_runsPrefix declared true
  obtain ⟨statements, hstatements, ⟨-, hprinted, -⟩, -, hreal⟩ := hrun _ hplan
  have htwo : Plan.statements .sqlite { actions := [.createTable film] } =
      .ok [{ sql := table }, { sql := index }] :=
    Except.toOption_eq_some_iff.mp (by decide +kernel)
  obtain rfl := Except.ok.inj (htwo.symm.trans hstatements)
  refine ⟨hplan, hprinted, ?_⟩
  rcases hreal with ⟨haccepts, -⟩ | ⟨before, s, after, fault, heq, -, hfault, hsent, hresult⟩
  · have hrejected := haccepts [{ sql := table }] { sql := index } [] rfl
    cases hrejected
  · -- the first statement is not rejected, so it is the second one
    rcases before with _ | ⟨first, before⟩
    · cases hfault
    · rcases before with _ | ⟨second, before⟩
      · cases heq
        cases hfault
        exact ⟨hsent, hresult⟩
      · simp at heq

end AdditiveSchema
