import CqlStatements.Command.Arguments
import CqlStatements.Config.Discovery
import CqlStatements.Descriptor.Json
import CqlStatements.Qualifier
import CqlStatements.Statement.Compile

/-!
# Running a request

A run reads what it needs, prints lines and may fail. Lines printed before a failure stay printed, so each
task has all that can fail behind it before it prints its first line.

Where there is no task a text about the arguments comes in place of a run. How help and faults of the
arguments are worded is left open; both may depend on all arguments and on the variable that names a
settings file, since help shows its value.
-/
namespace CqlStatements.Command

/-- What a run finds around it. -/
structure Surroundings where
  files : Files
  environment : String → Option String

/-- What the path of a descriptor leads to; one dash stands for the input. -/
def Surroundings.entry (around : Surroundings) (path : String) : Files.Entry :=
  if path = "-" then .device .input else around.files.entry path

/-- The request that arguments make in their surroundings. -/
def Surroundings.request (around : Surroundings) (arguments : List String) : Except Stop Request :=
  Request.ofArguments (around.environment "CQLG_CONFIG") arguments

/-- The settings that a run finds. -/
def Surroundings.discover (around : Surroundings) (configPath : Option String) :
    Except Config.LoadError Config.Found :=
  Config.discover around.files (Config.candidates around.environment) configPath

/-- What is left once the descriptor of a path has been read. -/
def Surroundings.after (around : Surroundings) (path : String) : Surroundings :=
  { around with files := around.files.after (around.entry path) }

inductive Failure where
  /-- The descriptor cannot be read; `source` says where from. -/
  | unreadable (source : String) (fault : Files.Fault)
  | undecodable (cause : Json.DecodeError)
  | statement (cause : Error)
  | strip (cause : Qualifier.StripError)
  | settings (cause : Config.LoadError)
deriving DecidableEq, Repr

def Failure.message : Failure → String
  | unreadable source fault => "Failed to read " ++ source ++ ": " ++ fault.message
  | undecodable cause => "JSON error: " ++ cause.message
  | statement cause => cause.message
  | strip cause => cause.message
  | settings cause => cause.message

/-- A computation that prints text and may fail, its text staying printed. -/
abbrev Printing := ExceptT Failure (StateM String)

def printLine (line : String) : Printing Unit := modify fun output => output ++ line ++ "\n"

def printLines (lines : List String) : Printing Unit := lines.forM printLine

/-- A step that cannot print. -/
def attempt {ε α : Type} (failure : ε → Failure) (result : Except ε α) : Printing α :=
  match result with
  | .ok x => pure x
  | .error cause => throw (failure cause)

def readDescriptor (around : Surroundings) (path : String) : Printing Descriptor := do
  let source := if path = "-" then "stdin" else path
  let text ← attempt (.unreadable source) (around.files.text (around.entry path))
  attempt .undecodable (Descriptor.ofJsonText text)

def findSettings (around : Surroundings) (configPath : Option String) : Printing Config.Found :=
  attempt .settings (around.discover configPath)

/-- A compiled statement as JSON, its members in alphabetical order. -/
def statementJson (statement : Statement) (finished : Option String) : Json :=
  .ofFields
    [("bound", (finished.map Json.string).getD .null),
      ("operation", .string statement.operation.name),
      ("parameters", .array (statement.parameters.map Scalar.toJson)),
      ("text", .string statement.text)]

def parameterLines (parameters : List Scalar) : List String :=
  parameters.zipIdx.map fun (value, place) =>
    "  ?" ++ (place + 1).repr ++ " = " ++ value.literal

/-- A compiled statement for readers: its text, its parameters if there are any, and its bound text if
that is asked for. -/
def statementLines (statement : Statement) (finished : Option String) : List String :=
  ["Generated CQL:", "  " ++ statement.text] ++
    (if statement.parameters.isEmpty then []
    else "" :: "Parameters:" :: parameterLines statement.parameters) ++
    match finished with
    | none => []
    | some text => ["", "Bound:", "  " ++ text]

/-- The text of a statement with its values put in, as the settings want it. -/
def finish (around : Surroundings) (configPath : Option String) (statement : Statement) :
    Printing String := do
  let settings ← findSettings around configPath
  attempt .statement (statement.finalize settings.config.allowFiltering)

/-- Compiles the descriptor of a path. It is read before the settings are, which finds the input empty if
both are to come from there. -/
def compile (around : Surroundings) (configPath : Option String) (path : String) (bound : Bool)
    (format : Format) : Printing Unit := do
  let descriptor ← readDescriptor around path
  let statement ← attempt .statement descriptor.compile
  let finished ← if bound then some <$> finish (around.after path) configPath statement else pure none
  match format with
  | .json => printLine (statementJson statement finished).indented
  | .text => printLines (statementLines statement finished)

def bindValues (query : String) (values : List String) : Printing Unit := do
  let text ← attempt .statement (CqlStatements.bind query (values.map Scalar.ofLoose))
  printLine text

def stripQuery (query : String) : Printing Unit := do
  let text ← attempt .strip (Qualifier.strip query)
  printLine text

def nodeLine (node : Config.Node) : String :=
  "  • " ++ node.host ++ ":" ++ node.port.toNat.repr

/-- Shows the settings that are in force, where they come from and the contact points they name. -/
def showSettings (around : Surroundings) (configPath : Option String) : Printing Unit := do
  let found ← findSettings around configPath
  match found.path with
  | some path => printLine ("Config: " ++ path)
  | none => printLine "Config: (defaults)"
  printLine ""
  let text ← attempt (fun fault => .settings (.unusable fault)) found.config.maskedTomlText
  modify fun output => output ++ text
  printLines ("" :: "Nodes:" :: found.config.nodes.map nodeLine)

def Request.perform (r : Request) (around : Surroundings) : Printing Unit :=
  match r.task with
  | .compile path bound format => compile around r.configPath path bound format
  | .bind query values => bindValues query values
  | .strip query => stripQuery query
  | .config => showSettings around r.configPath

/-- The paths that a request may look at. -/
def Request.paths (r : Request) (environment : String → Option String) : List String :=
  let settings :=
    match r.configPath with
    | some path => [path]
    | none => Config.candidates environment
  match r.task with
  | .compile path bound _ => path :: if bound then settings else []
  | .config => settings
  | .bind _ _ | .strip _ => []

/-- Whether a request asks for the input by a dash. -/
def Request.readsInput (r : Request) : Bool :=
  match r.task with
  | .compile path _ _ => path == "-"
  | _ => false

/-- What a run leaves behind. -/
structure Outcome where
  output : String
  failure : Option Failure
deriving DecidableEq, Repr

/-- The outcome of a computation that begins with nothing printed. -/
def Outcome.ofPrinting (printing : Printing Unit) : Outcome :=
  match printing.run.run "" with
  | (.ok _, output) => ⟨output, none⟩
  | (.error failure, output) => ⟨output, some failure⟩

/-- How help and faults of the arguments are worded, given the arguments and the variable that names a
settings file. -/
structure Wording where
  help : List String → Option String → String
  usage : List String → Option String → String

/-- The text that comes in place of a run. -/
def Wording.text (wording : Wording) (arguments : List String) (fallback : Option String) : Stop → String
  | .usage => wording.usage arguments fallback
  | .version => "cqlg 0.3.0\n"
  | .help => wording.help arguments fallback

/-- The result of the command: a run, or what came in place of one. -/
inductive Result where
  | stopped (stop : Stop) (text : String)
  | ran (outcome : Outcome)
deriving DecidableEq, Repr

/-- Runs the command. -/
def run (wording : Wording) (arguments : List String) (around : Surroundings) : Result :=
  match around.request arguments with
  | .error stop => .stopped stop (wording.text arguments (around.environment "CQLG_CONFIG") stop)
  | .ok request => .ran (.ofPrinting (request.perform around))

section Runs

variable {wording : Wording} {arguments : List String} {around : Surroundings}

theorem run_of_request {request : Request} (asked : around.request arguments = .ok request) :
    run wording arguments around = .ran (.ofPrinting (request.perform around)) := by
  simp only [run, asked]

theorem run_of_stopped {stop : Stop} (asked : around.request arguments = .error stop) :
    run wording arguments around =
      .stopped stop (wording.text arguments (around.environment "CQLG_CONFIG") stop) := by
  simp only [run, asked]

end Runs

namespace Result

/-- The exit code; a query that has no answer ends the run with a code of its own. -/
def exitCode : Result → UInt8
  | stopped .usage _ => 2
  | stopped .version _ | stopped .help _ => 0
  | ran outcome =>
      match outcome.failure with
      | none => 0
      | some (.strip .insideCharacter) => 101
      | some _ => 1

def output : Result → String
  | stopped .usage _ => ""
  | stopped .version text | stopped .help text => text
  | ran outcome => outcome.output

/-- What is said about a run that went wrong. -/
def errorText : Result → String
  | stopped .usage text => text
  | stopped .version _ | stopped .help _ => ""
  | ran outcome =>
      match outcome.failure with
      | none => ""
      | some failure => "Error: " ++ failure.message ++ "\n"

end Result
end CqlStatements.Command
