import AdditiveSchema.CommandLine.Options
import AdditiveSchema.Declared.Issue

/-!
# Arguments

What the arguments of the program ask for. Options of the program stand in front of the command,
options of the command behind it. The address of the database and the name of the schema file may
also stand in the environment; an option wins.
-/

namespace AdditiveSchema.CommandLine

/-- How a plan is shown. -/
inductive PlanFormat where
  | text
  | json
  deriving DecidableEq, Repr

/-- What is to be done. -/
inductive Command where
  /-- Show the statements that are missing. -/
  | plan (format : PlanFormat)
  /-- Run them, or only print them. -/
  | apply (dryRun : Bool)
  /-- Show the schema of the database. -/
  | inspect
  deriving DecidableEq, Repr

/-- A command with all that it depends on. -/
structure Arguments where
  /-- The address of the database. -/
  database : String
  /-- The name of the schema file. -/
  schema : Option String
  policy : ModifierPolicy
  detectDrift : Bool
  verbose : Bool
  command : Command
  deriving DecidableEq, Repr

/-- What the arguments ask for. -/
inductive Request where
  | help
  | version
  | run (arguments : Arguments)
  deriving DecidableEq, Repr

/-- The address of the database where none is given. -/
def defaultDatabase : String := "sqlite:db.sqlite3"

/-- Shows how to use a command. -/
def helpOption : OptionSpec := { long := "help", short := some 'h', isLast := true }

/-- The options of the program. -/
def programOptions : List OptionSpec :=
  [{ long := "database", short := some 'd', takesValue := true },
    { long := "schema", short := some 's', takesValue := true },
    { long := "unknown-modifiers", takesValue := true },
    { long := "no-drift" },
    { long := "verbose", short := some 'v' },
    helpOption,
    { long := "version", short := some 'V', isLast := true }]

/-- The names of the commands. -/
def commandNames : List String := ["plan", "apply", "inspect", "help"]

/-- What is done with unknown modifiers. -/
def readPolicy : String → Except UsageError ModifierPolicy
  | "warn" => .ok .warn
  | "deny" => .ok .deny
  | value => .error (.invalidValue "unknown-modifiers" value)

/-- How a plan is shown. -/
def readFormat : String → Except UsageError PlanFormat
  | "text" => .ok .text
  | "json" => .ok .json
  | value => .error (.invalidValue "format" value)

/-- The name of a file, which is not empty. -/
def readPath (path : String) : Except UsageError String :=
  if path.isEmpty then .error (.missingValue "schema") else .ok path

/-- The options of a command. Nothing may stand behind them but the mark that no option follows. -/
def readCommandOptions (specs : List OptionSpec) (arguments : List String) :
    Except UsageError (List GivenOption) := do
  let (given, rest) ← readOptions (helpOption :: specs) arguments
  match rest with
  | [] | ["--"] => return given
  | argument :: _ => throw (.unknown argument)

/-- The command of a name and its arguments. No command stands for a call for help. -/
def readCommand (name : String) (arguments : List String) :
    Except UsageError (Option Command) :=
  let orHelp (given : List GivenOption) (command : Command) : Option Command :=
    if isGiven given "help" then none else some command
  match name with
  | "plan" => do
    let given ← readCommandOptions
      [{ long := "format", short := some 'f', takesValue := true }] arguments
    let format ← readFormat ((valueOf? given "format").getD "text")
    return orHelp given (.plan format)
  | "apply" => do
    let given ← readCommandOptions [{ long := "dry-run" }] arguments
    return orHelp given (.apply (isGiven given "dry-run"))
  | "inspect" => do
    let given ← readCommandOptions [] arguments
    return orHelp given .inspect
  | "help" =>
    match arguments with
    | [] => .ok none
    | [topic] => if commandNames.contains topic then .ok none else .error (.unknown topic)
    | _ :: argument :: _ => .error (.unknown argument)
  | name => .error (.unknown name)

/-- What the arguments ask for in an environment. -/
def parse (environment : String → Option String) (arguments : List String) :
    Except UsageError Request := do
  let (given, rest) ← readOptions programOptions arguments
  let policy ← readPolicy ((valueOf? given "unknown-modifiers").getD "warn")
  let givenSchema ← (valueOf? given "schema").mapM readPath
  if isGiven given "help" then return .help
  if isGiven given "version" then return .version
  match rest with
  | [] => throw .missingCommand
  | name :: arguments =>
    match ← readCommand name arguments with
    | none => return .help
    | some command =>
      let schema ← match givenSchema with
        | some path => pure (some path)
        | none => (environment "OXIDE_DDL_SCHEMA").mapM readPath
      return .run {
        database := ((valueOf? given "database").or (environment "DATABASE_URL")).getD
          defaultDatabase
        schema
        policy
        detectDrift := !isGiven given "no-drift"
        verbose := isGiven given "verbose"
        command }

end AdditiveSchema.CommandLine
