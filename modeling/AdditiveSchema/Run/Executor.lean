import AdditiveSchema.Run.Outcome

/-!
# Applying a plan

A database takes one statement after the other and may reject any of them. `Database.apply` plans
what is missing and gives the statements of the plan to the database, in order, up to the first
one that is rejected. A dry run prints the same statements and gives none to the database.
-/

namespace AdditiveSchema

/-- What a database makes of a statement, given those that it ran before: nothing, or a fault. -/
abbrev Behaviour := (before : List String) → (sql : String) → Option Fault

/-- A database that is asked for its schema and given statements. -/
structure Database where
  server : Server
  behaviour : Behaviour := fun _ _ => none

/-- What a run did. -/
structure RunReport where
  plan : Plan
  /-- The statements that the database ran, or that were printed. -/
  statements : List Statement
  dryRun : Bool
  deriving DecidableEq, Repr

/-- Logs the warnings of a plan. -/
def Plan.logWarnings (p : Plan) : Outcome Unit :=
  p.warnings.forM fun w => Outcome.warn "Schema warning" [("warning", w.message)]

namespace Database

/-- Gives one statement to the database, which ran the statements `before`. -/
def execute (db : Database) (before : List String) (sql : String) : Outcome Unit :=
  ⟨[.send sql], match db.behaviour before sql with
    | none => .ok ()
    | some fault => .error (.statement sql fault)⟩

/-- Runs or prints one statement. The answer is what is done so far. -/
def runStatement (db : Database) (dryRun : Bool) (done : List Statement) (s : Statement) :
    Outcome (List Statement) := do
  if dryRun then Outcome.print (s.sql ++ ";")
  else db.execute (done.map (·.sql)) s.sql
  return done ++ [s]

/-- Runs or prints the statements of one action. -/
def runAction (db : Database) (d : Dialect) (dryRun : Bool) (done : List Statement) (a : Action) :
    Outcome (List Statement) := do
  Outcome.info "Applying" [("action", a.message)]
  let statements ← Outcome.ofExcept .generate (a.statements d)
  statements.foldlM (db.runStatement dryRun) done

/-- Plans the creation of all that the database lacks of the schema. -/
def plan (db : Database) (s : DeclaredSchema) (detectDrift : Bool) : Outcome Plan := do
  if s.dialect ≠ db.server.dialect then
    Outcome.fail (.dialectMismatch s.dialect db.server.dialect)
  let catalog ← Outcome.ofExcept .access db.server.snapshot
  let plan ← Outcome.ofExcept .plan (reconcile catalog.view s detectDrift)
  Outcome.info "Computed plan"
    [("actions", toString plan.actions.length), ("warnings", toString plan.warnings.length)]
  return plan

/-- Creates all that the database lacks of the schema. -/
def apply (db : Database) (s : DeclaredSchema) (detectDrift dryRun : Bool) :
    Outcome RunReport := do
  let plan ← db.plan s detectDrift
  plan.logWarnings
  if plan.isEmpty then Outcome.info "Database is up to date" []
  let statements ← plan.actions.foldlM (db.runAction s.dialect dryRun) []
  return { plan, statements, dryRun }

end Database

end AdditiveSchema
