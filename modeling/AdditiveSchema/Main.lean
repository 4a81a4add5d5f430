import AdditiveSchema.CommandLine.Program
import AdditiveSchema.Json.Parser
import AdditiveSchema.Reported.Import

/-!
# The program on a console

Reads what the arguments need, runs the program and writes its two outputs. The database is on
the other side of two streams: its report is read from standard input as JSON, and the statements
for it are written to standard error. It accepts all of them.
-/

namespace AdditiveSchema.CommandLine

/-- The database with the report in a text. No text is the report of an empty database. -/
def reportedDatabase (text : String) (d : Dialect) : Except Fault Database :=
  let report := if (Text.trim text.toList).isEmpty then some (.object []) else Json.parse? text
  match report.bind (Server.ofJson? d) with
  | some server => .ok { server }
  | none => .error ⟨"the report of the database cannot be read"⟩

/-- Reads a schema file. -/
def readFile (path : String) : IO (Except FileError String) := do
  try
    return decodeText (← IO.FS.readBinFile path)
  catch
    | .noFileOrDirectory .. => return .error .missing
    | e => return .error (.other e.toString)

/-- The file and the report that a request needs. -/
def surroundings (environment : String → Option String) (request : Except UsageError Request) :
    IO Surroundings := do
  match request with
  | .ok (.run a) =>
    let content ← match a.schema with
      | some path => readFile path
      | none => pure (.error .missing)
    let report ← (← IO.getStdin).readToEnd
    return {
      environment
      file := fun _ => content
      database := fun d _ => reportedDatabase report d }
  | _ =>
    return {
      environment
      file := fun _ => .error .missing
      database := fun d _ => reportedDatabase "" d }

end AdditiveSchema.CommandLine

open AdditiveSchema.CommandLine in
/-- Runs the program on the arguments. -/
def main (arguments : List String) : IO UInt32 := do
  let url ← IO.getEnv "DATABASE_URL"
  let schema ← IO.getEnv "OXIDE_DDL_SCHEMA"
  let environment (name : String) : Option String :=
    match name with
    | "DATABASE_URL" => url
    | "OXIDE_DDL_SCHEMA" => schema
    | _ => none
  let w ← surroundings environment (parse environment arguments)
  let exit := program w arguments
  for text in exit.output do IO.println text
  for sql in exit.sent do IO.eprintln (sql ++ ";")
  IO.eprint exit.errors
  return exit.code.toUInt32
