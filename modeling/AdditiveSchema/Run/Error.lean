import AdditiveSchema.Declared.Issue
import AdditiveSchema.Plan.Reconcile
import AdditiveSchema.Reported.Server
import AdditiveSchema.SchemaFile

/-!
# What ends a run

Every reason for which a schema is not loaded, planned or applied, with its wording and with the
texts of the causes behind it, the nearest first.
-/

namespace AdditiveSchema

/-- Why the content of a file is not known. -/
inductive FileError where
  | missing
  | directory
  | notText
  | other (message : String)
  deriving DecidableEq, Repr

/-- The wording of the error. -/
def FileError.message : FileError → String
  | .missing => "No such file or directory (os error 2)"
  | .directory => "Is a directory (os error 21)"
  | .notText => "stream did not contain valid UTF-8"
  | .other message => message

/-- Why a run ended early. -/
inductive RunError where
  /-- The existing schema cannot be read. -/
  | access (e : AccessError)
  /-- The database rejects a statement. -/
  | statement (sql : String) (fault : Fault)
  /-- The schema file cannot be read. -/
  | file (e : FileError)
  /-- The content of the schema file is wrong. -/
  | schemaFile (path : String) (e : SchemaFile.ParseError)
  /-- The declared schema is wrong. -/
  | schema (issues : List Issue)
  /-- There is no plan. -/
  | plan (e : PlanError)
  /-- A statement cannot be generated. -/
  | generate (e : GenerateError)
  /-- The address is not one of a supported database. -/
  | unsupportedUrl (url : String)
  /-- The schema is declared for another dialect than the one of the database. -/
  | dialectMismatch (declared database : Dialect)
  /-- A command needs a declared schema. -/
  | schemaRequired
  deriving DecidableEq, Repr

/-- The causes of a fault. A fault that the database itself reports is told with and without its
preamble. -/
def Fault.causes (fault : Fault) : List String :=
  match Text.dropLead? "error returned from database: ".toList fault.message.toList with
  | some report => [fault.message, String.ofList report]
  | none => [fault.message]

/-- The wording of an error in the content of a schema file. -/
def SchemaFile.errorMessage (path cause : String) : String :=
  "Failed to parse schema file '" ++ path ++ "': " ++ cause

namespace RunError

/-- The wording of the error. -/
def message : RunError → String
  | .access e => e.message
  | .statement sql fault => "Failed to execute '" ++ sql ++ "': " ++ fault.message
  | .file e => "IO error: " ++ e.message
  | .schemaFile path e => SchemaFile.errorMessage path e.message
  | .schema issues => Issue.messageOfAll issues
  | .plan e => e.message
  | .generate e => e.message
  | .unsupportedUrl url => "Unsupported database URL: " ++ url
  | .dialectMismatch declared database =>
    "Schema was built for " ++ declared.name ++ ", but the database is " ++ database.name
  | .schemaRequired => "--schema is required for this command"

/-- The texts of the causes. -/
def causes : RunError → List String
  | .access (.database fault) => fault.causes
  | .statement _ fault => fault.causes
  | .file e => [e.message]
  | _ => []

end RunError

end AdditiveSchema
