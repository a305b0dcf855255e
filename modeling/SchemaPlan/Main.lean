import SchemaPlan.CommandLine
import SchemaPlan.MySql.Recorded

/-!
# The program

The command line with its files and its environment. The database is a recording: its address is the
path of a JSON file with the catalog rows of a server, and statements that are applied to it succeed
without a trace. The verbose tool shows on the error stream what the server is asked.
-/
namespace SchemaPlan.CommandLine

def usageText : String :=
  "Usage: schema-plan --database-url <RECORDING> [--schema <DOCUMENT>] [--verbose] <diff|apply>"

def fileBytes (path : String) : IO (Except FileFault ByteArray) := do
  match ← (IO.FS.readBinFile path).toBaseIO with
  | .ok bytes => return .ok bytes
  | .error _ => return .error .notFound

/-- The connections to the server of a recording; a file that holds none is no address. -/
def connectRecorded (file : Except FileFault ByteArray) :
    Except DatabaseError (MySql.Pool Unit) :=
  match file with
  | .error _ => .error .badAddress
  | .ok bytes =>
    match String.fromUTF8? bytes with
    | none => .error .badAddress
    | some text =>
      match MySql.Recorded.read text with
      | .ok recorded => .ok { server := recorded.server }
      | .error _ => .error .badAddress

/-- Runs the tool on its arguments, and gives its exit status. -/
def runProgram (arguments : List String) : IO UInt32 := do
  let environment : Environment :=
    { databaseUrl := ← IO.getEnv "DATABASE_URL", document := ← IO.getEnv "SCHEMA_DOCUMENT" }
  match readArguments environment arguments with
  | .error refusal =>
    (if refusal = .help then IO.println else IO.eprintln) usageText
    return UInt32.ofNat refusal.exitStatus
  | .ok invocation =>
    let document ← fileBytes invocation.document
    let recording ← fileBytes invocation.databaseUrl
    let talk := run (fun _ => connectRecorded recording) (fun _ => document) invocation
    let (result, session) := talk { state := () }
    if invocation.verbose then session.log.forM fun request => IO.eprintln request.sql
    match result with
    | .ok statements =>
      (outputLines statements).forM IO.println
      return 0
    | .error failure =>
      IO.eprintln (errorLine failure)
      return 1

end SchemaPlan.CommandLine

def main (arguments : List String) : IO UInt32 :=
  SchemaPlan.CommandLine.runProgram arguments
