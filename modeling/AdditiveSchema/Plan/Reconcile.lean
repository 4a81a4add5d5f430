import AdditiveSchema.Declared.Schema
import AdditiveSchema.Plan.ChangeOrder
import AdditiveSchema.Plan.Deferral
import AdditiveSchema.Plan.Diff

/-!
# Reconciliation

`reconcile` compares a declared schema with a view of the existing one and plans the creation of
all that is missing, in an order in which the actions can be carried out one by one. Nothing is
dropped or changed. Items that the dialect cannot create are left out with a warning.
-/

namespace AdditiveSchema

/-- Why there is no plan. -/
inductive PlanError where
  /-- References that may not be null run in a circle through new tables. -/
  | cyclicDependency (tables : List QualifiedName)
  /-- A table could not be read. -/
  | read (cause : ReadError)
  /-- A new table has no statement. -/
  | generate (cause : GenerateError)
  deriving DecidableEq, Repr

/-- The wording of the error. -/
def PlanError.message : PlanError → String
  | .cyclicDependency tables =>
    "cyclic foreign key dependency between tables: " ++
      ", ".intercalate (tables.map QualifiedName.toString)
  | .read cause => cause.message
  | .generate cause => cause.message

namespace Reconcile

/-- Splits items into those that have statements and warnings about those that the dialect cannot
create. -/
def sift {α β : Type} (table : α → QualifiedName) (render : α → Except GenerateError β) :
    List α → Except GenerateError (List α × List Warning)
  | [] => .ok ([], [])
  | a :: as => do
    match render a with
    | .ok _ =>
      let (kept, warnings) ← sift table render as
      return (a :: kept, warnings)
    | .error e =>
      if e.isUnsupported then
        let (kept, warnings) ← sift table render as
        return (kept, .unsupported (table a) e.message :: warnings)
      else throw e

/-- What the comparison of declared tables finds. -/
structure Findings where
  newTables : List Table := []
  changes : List Action := []
  warnings : List Warning := []

/-- Two findings, one after the other. -/
def Findings.append (a b : Findings) : Findings where
  newTables := a.newTables ++ b.newTables
  changes := a.changes ++ b.changes
  warnings := a.warnings ++ b.warnings

/-- Compares one declared table, whose schemas are filled in. A new table keeps the indices that
the dialect can create. -/
def examine (d : Dialect) (v : View) (detectDrift : Bool) (t : Table) :
    Except PlanError Findings := do
  let name := t.qualifiedName
  if v.resolvedNames.contains name then
    let e ← (Diff.Existing.read v name).mapError .read
    return {
      changes := Diff.missing e t
      warnings := if detectDrift then Diff.drift d e t else [] }
  else
    let (indices, warnings) ←
      (sift (fun _ => name) (d.createIndex name) t.indices).mapError .generate
    return { newTables := [{ t with indices := indices }], warnings := warnings }

/-- Compares all declared tables, in order. -/
def examineAll (s : DeclaredSchema) (v : View) (detectDrift : Bool) : Except PlanError Findings :=
  s.tables.foldlM (fun found t => do
    let more ← examine s.dialect v detectDrift (t.resolve v.defaultSchema)
    return found.append more) {}

end Reconcile

/-- Plans the creation of all that the view lacks of the schema. -/
def reconcile (v : View) (s : DeclaredSchema) (detectDrift : Bool) : Except PlanError Plan := do
  let found ← Reconcile.examineAll s v detectDrift
  let (newTables, deferred) ←
    (TableOrder.order found.newTables s.dialect.allowsForwardReferences).mapError
      .cyclicDependency
  let (changes, refused) ←
    (Reconcile.sift Action.table (Action.statements s.dialect)
      (ChangeOrder.order found.changes)).mapError .generate
  let actions := newTables.map .createTable ++ changes ++
    deferred.map fun d => .addForeignKey d.table d.column d.foreignKey
  let warnings := s.warnings ++ found.warnings ++ refused ++
    deferred.map fun d => .deferredForeignKey d.table d.column d.foreignKey
  let plan : Plan := { actions := actions, warnings := warnings }
  let _ ← (plan.statements s.dialect).mapError .generate
  return plan

end AdditiveSchema
