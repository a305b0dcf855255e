import SchemaPlan.Declaration.Document
import SchemaPlan.MySql.Session

/-!
# The command line

The tool compares a MySQL database with a schema document and prints the statements that lead from
one to the other (`diff`), or runs them (`apply`). Options stand before the subcommand; those that
name the database and the document may come from the environment instead.

Arguments are read by `readArguments`, the work is done by `run`, which is a function of the
arguments, the document file and the server.
-/
namespace SchemaPlan.CommandLine

/-! ## Arguments -/

/-- What is to be done with the statements of a plan. -/
inductive Command where
  | diff
  | apply
  deriving DecidableEq

/-- The options given before the subcommand. -/
structure Options where
  databaseUrl : Option String := none
  document : Option String := none
  verbose : Bool := false
  deriving DecidableEq

/-- A complete set of arguments. -/
structure Invocation where
  databaseUrl : String
  document : String
  verbose : Bool
  command : Command
  deriving DecidableEq

/-- Values that the environment gives to options. -/
structure Environment where
  databaseUrl : Option String := none
  document : Option String := none

/-- Why there is nothing to run: the arguments are wrong, or they ask for a description. -/
inductive Refusal where
  | usage
  | help
  deriving DecidableEq

/-- The options of the tool. -/
inductive OptionName where
  | databaseUrl
  | document
  | verbose
  | help
  | version
  deriving DecidableEq

def longOption? (name : String) : Option OptionName :=
  if name = "database-url" then some .databaseUrl
  else if name = "schema" then some .document
  else if name = "verbose" then some .verbose
  else if name = "help" then some .help
  else if name = "version" then some .version
  else none

def shortOption? (name : Char) : Option OptionName :=
  if name = 'd' then some .databaseUrl
  else if name = 's' then some .document
  else if name = 'v' then some .verbose
  else if name = 'h' then some .help
  else if name = 'V' then some .version
  else none

def OptionName.takesValue : OptionName → Bool
  | .databaseUrl => true
  | .document => true
  | _ => false

/-- Sets an option that has a value. It may be given once, and a document has a name. -/
def Options.setValue (options : Options) (name : OptionName) (value : String) :
    Except Refusal Options :=
  match name with
  | .databaseUrl =>
    if options.databaseUrl.isSome then .error .usage
    else .ok { options with databaseUrl := some value }
  | .document =>
    if options.document.isSome || value = "" then .error .usage
    else .ok { options with document := some value }
  | _ => .error .usage

def Options.setFlag (options : Options) (name : OptionName) : Except Refusal Options :=
  match name with
  | .verbose => if options.verbose then .error .usage else .ok { options with verbose := true }
  | .help => .error .help
  | .version => .error .help
  | _ => .error .usage

/-- Whether an argument is an option rather than a value. -/
def looksLikeOption (argument : String) : Bool :=
  match argument.toList with
  | '-' :: _ :: _ => true
  | _ => false

/-- What an argument with options comes to: the options with what it sets, and the option that waits
for the next argument as its value. -/
abbrev Reading := Except Refusal (Options × Option OptionName)

/-- Reads the letters behind a dash. The first option with a value takes the rest of the letters, an
equals sign in front of them left out, or waits for the next argument. -/
def readLetters (options : Options) : List Char → Reading
  | [] => .ok (options, none)
  | c :: rest =>
    match shortOption? c with
    | none => .error .usage
    | some name =>
      if name.takesValue then
        match rest with
        | [] => .ok (options, some name)
        | '=' :: value => (options.setValue name (String.ofList value)).map (·, none)
        | value => (options.setValue name (String.ofList value)).map (·, none)
      else (options.setFlag name).bind fun options => readLetters options rest

/-- Reads the name behind two dashes, with a value behind an equals sign. -/
def readLong (options : Options) (text : List Char) : Reading :=
  let (name, value) :=
    match Text.cutAt '=' text with
    | some (name, value) => (name, some (String.ofList value))
    | none => (text, none)
  match longOption? (String.ofList name), value with
  | none, _ => .error .usage
  | some option, some value =>
    if option.takesValue then (options.setValue option value).map (·, none) else .error .usage
  | some option, none =>
    if option.takesValue then .ok (options, some option)
    else (options.setFlag option).map (·, none)

/-- Reads the arguments behind a subcommand, which has none but the mark that ends the options and
the question for help. -/
def readRest (arguments : List String) : Except Refusal Unit :=
  match arguments with
  | [] => .ok ()
  | ["--"] => .ok ()
  | first :: _ => if first = "-h" || first = "--help" then .error .help else .error .usage

def command? (name : String) : Option Command :=
  if name = "diff" then some .diff else if name = "apply" then some .apply else none

def readCommand (name : String) (rest : List String) : Except Refusal Command :=
  match command? name with
  | some command => (readRest rest).map fun _ => command
  | none =>
    if name = "help" then
      match rest with
      | [] => .error .help
      | [topic] =>
        if (command? topic).isSome || topic = "help" then .error .help else .error .usage
      | _ => .error .usage
    else .error .usage

/-- Reads options up to the subcommand; `waiting` is the option that the next argument is the value
of. -/
def readOptions (options : Options) (waiting : Option OptionName) :
    List String → Except Refusal (Options × Command)
  | [] => .error .usage
  | argument :: rest =>
    match waiting with
    | some name =>
      if looksLikeOption argument then .error .usage
      else (options.setValue name argument).bind fun options => readOptions options none rest
    | none =>
      match argument.toList with
      | '-' :: '-' :: text =>
        (readLong options text).bind fun (options, waiting) => readOptions options waiting rest
      | '-' :: c :: letters =>
        (readLetters options (c :: letters)).bind fun (options, waiting) =>
          readOptions options waiting rest
      | _ => (readCommand argument rest).map fun command => (options, command)

def defaultDocument : String := "schema.json"

/-- Reads the arguments of the tool, and the environment where they leave something open. -/
def readArguments (environment : Environment) (arguments : List String) :
    Except Refusal Invocation := do
  let (options, command) ← readOptions {} none arguments
  let document ←
    match options.document.or environment.document with
    | none => .ok defaultDocument
    | some name => if name = "" then .error .usage else .ok name
  match options.databaseUrl.or environment.databaseUrl with
  | none => .error .usage
  | some databaseUrl => .ok { databaseUrl, document, verbose := options.verbose, command }

/-! ## Running -/

/-- The bytes of a file as a document. -/
def readDocument (file : Except FileFault ByteArray) : Except SchemaError Document :=
  match file with
  | .error fault => .error (.file fault)
  | .ok bytes =>
    match String.fromUTF8? bytes with
    | none => .error (.file .notText)
    | some text => (Document.read text).mapError .document

/-- Why a run failed. -/
inductive Failure where
  | schema (error : SchemaError)
  | connection (error : DatabaseError)

def Failure.message : Failure → String
  | .schema error => error.message
  | .connection error => error.message

variable {σ : Type}

/-- Runs a command against a server; the result is what it prints. -/
def runCommand (pool : MySql.Pool σ) (command : Command) (tables : List TableDecl) :
    MySql.Talk σ (Except SchemaError (List Statement)) := do
  match ← MySql.detect pool with
  | .error error => return .error (.catalog error)
  | .ok version =>
    let dialect : MySql := { version }
    match command with
    | .diff => MySql.diff dialect pool tables
    | .apply => return (← MySql.apply dialect pool tables).map fun _ => []

/-- Runs the tool: the document is read first, then the server is asked. -/
def run (connect : String → Except DatabaseError (MySql.Pool σ))
    (load : String → Except FileFault ByteArray) (invocation : Invocation) :
    MySql.Talk σ (Except Failure (List Statement)) := do
  match readDocument (load invocation.document) with
  | .error error => return .error (.schema error)
  | .ok document =>
    match connect invocation.databaseUrl with
    | .error error => return .error (.connection error)
    | .ok pool =>
      return (← runCommand pool invocation.command document.tables).mapError .schema

def linesOf (text : String) : List String :=
  (Text.pieces (· == '\n') text.toList).map String.ofList

/-- The lines that a run prints: every statement with a semicolon behind it. -/
def outputLines (statements : List Statement) : List String :=
  statements.flatMap fun statement => linesOf (statement.sql ++ ";")

/-- The line that reports a failure; only the first line of its message. -/
def errorLine (failure : Failure) : String :=
  "Error: " ++ (linesOf failure.message).head?.getD ""

def Refusal.exitStatus : Refusal → Nat
  | .usage => 2
  | .help => 0

end SchemaPlan.CommandLine
