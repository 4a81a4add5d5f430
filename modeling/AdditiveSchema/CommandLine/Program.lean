import AdditiveSchema.CommandLine.Arguments
import AdditiveSchema.Export
import AdditiveSchema.Json.Printer
import AdditiveSchema.Run.Executor
import AdditiveSchema.Run.Load

/-!
# The program

What the program does with its arguments. All that it reads is given by its surroundings: the
environment, the files and the databases. All that it does is an outcome, which `Exit.ofOutcome`
turns into the texts on the two outputs and the status.
-/

namespace AdditiveSchema.CommandLine

/-- What the program can reach. -/
structure Surroundings where
  environment : String → Option String
  /-- The content of the file of that name. -/
  file : String → Except FileError String
  /-- The database of that address, whose scheme is the one of the dialect. -/
  database : Dialect → String → Except Fault Database

/-- Connects to the database of an address. -/
def connect (w : Surroundings) (url : String) : Outcome Database :=
  match Dialect.ofUrl? url with
  | none => Outcome.fail (.unsupportedUrl url)
  | some d => do
    Outcome.info "Connecting to database" [("dialect", d.name)]
    Outcome.ofExcept (fun fault => .access (.database fault)) (w.database d url)

/-- Loads the schema that the arguments name. -/
def declaredSchema (w : Surroundings) (a : Arguments) (d : Dialect) : Outcome DeclaredSchema :=
  match a.schema with
  | none => Outcome.fail .schemaRequired
  | some path => do
    let definitions ← Outcome.ofExcept id (SchemaFile.load path (w.file path))
    let s ← Outcome.ofExcept id (DeclaredSchema.load d a.policy definitions)
    Outcome.info "Loaded schema"
      [("tables", toString s.tables.length), ("skipped", toString s.skipped.length)]
    return s

/-- Shows an action with its statements. -/
def showAction (d : Dialect) (a : Action) : Outcome Unit := do
  Outcome.print ("-- " ++ a.message)
  let statements ← Outcome.ofExcept .generate (a.statements d)
  statements.forM fun s => Outcome.print (s.sql ++ ";")

/-- Shows a plan. -/
def showPlan (d : Dialect) (plan : Plan) : PlanFormat → Outcome Unit
  | .json => Outcome.print plan.toJson.pretty
  | .text => do
    plan.logWarnings
    if plan.isEmpty then Outcome.info "Database is up to date." []
    plan.actions.forM (showAction d)

/-- Carries out a command on a database. -/
def runCommand (w : Surroundings) (a : Arguments) (db : Database) : Outcome Unit := do
  let dialect := db.server.dialect
  match a.command with
  | .plan format =>
    let s ← declaredSchema w a dialect
    let plan ← db.plan s a.detectDrift
    showPlan dialect plan format
  | .apply dryRun =>
    let s ← declaredSchema w a dialect
    if dryRun then
      Outcome.info "Dry run mode - SQL will be printed but not executed." []
    let report ← db.apply s a.detectDrift dryRun
    Outcome.info "Done" [("actions", toString report.plan.actions.length),
      ("statements", toString report.statements.length)]
  | .inspect =>
    let catalog ← Outcome.ofExcept .access db.server.snapshot
    Outcome.print (Json.array (catalog.tables.map Table.toJson)).pretty

/-- Carries out the arguments. -/
def run (w : Surroundings) (a : Arguments) : Outcome Unit := do
  let db ← connect w a.database
  runCommand w a db

/-! ### The end of the program -/

/-- Indents a text behind a label. The lines after the first are indented by as many blanks. -/
def indented (label text : String) : String :=
  let gap := "\n" ++ String.ofList (List.replicate label.length ' ')
  label ++ gap.intercalate (Text.split '\n' text)

/-- The causes of an error, each on lines of its own. Several causes are numbered. -/
def causeLines : List String → List String
  | [] => []
  | [cause] => [indented "    " cause]
  | causes => causes.zipIdx.map fun (cause, n) => indented ("    " ++ toString n ++ ": ") cause

/-- The report of an error. -/
def errorReport (e : RunError) : String :=
  let causes := match e.causes with
    | [] => ""
    | causes => "\n\nCaused by:\n" ++ "\n".intercalate (causeLines causes)
  "Error: " ++ e.message ++ causes ++ "\n"

/-- What is left when the program ends. -/
structure Exit where
  code : Nat
  /-- The texts on standard output, one after the other. Each ends its line. -/
  output : List String := []
  /-- The text on standard error. -/
  errors : String := ""
  /-- The statements that the database was given. -/
  sent : List String := []
  deriving DecidableEq, Repr

/-- The end of a program with that outcome. -/
def Exit.ofOutcome (x : Outcome Unit) : Exit where
  code := match x.result with
    | .ok _ => 0
    | .error _ => 1
  output := x.events.filterMap Event.text?
  errors := match x.result with
    | .ok _ => ""
    | .error e => errorReport e
  sent := x.sent

/-- How to use the program. -/
def usage : String :=
  "Usage: oxide-ddl [-d URL] [-s FILE] [--unknown-modifiers warn|deny] [--no-drift] [-v] " ++
    "plan [-f text|json] | apply [--dry-run] | inspect"

/-- The name of the program and its version. -/
def versionLine : String := "oxide-ddl 0.1.0"

/-- Runs the program. -/
def program (w : Surroundings) (arguments : List String) : Exit :=
  match parse w.environment arguments with
  | .error e => { code := 2, errors := e.message ++ "\n\n" ++ usage ++ "\n" }
  | .ok .help => { code := 0, output := [usage] }
  | .ok .version => { code := 0, output := [versionLine] }
  | .ok (.run a) => Exit.ofOutcome (run w a)

end AdditiveSchema.CommandLine
