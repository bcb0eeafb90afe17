import CqlStatements.Command.Run

/-!
# The program

The program reads the files and the input that its request may look at, runs the request on them, prints
what comes of it and ends with its exit code. It has one page of help, whatever the help is about.
-/
namespace CqlStatements.Program

/-- The fault of a system call that ended with an error code, which may come negated. -/
def faultOfCode (code : UInt32) (text : String) : Files.Fault :=
  let code := min code (0 - code)
  if code = 2 then .notFound
  else if code = 13 then .notPermitted
  else if code = 20 then .notDirectory
  else if code = 21 then .isDirectory
  else if code = 36 then .nameTooLong
  else .other text

def faultOfError (e : IO.Error) : Files.Fault :=
  match e with
  | .noFileOrDirectory _ code text | .permissionDenied _ code text
  | .inappropriateType _ code text | .invalidArgument _ code text => faultOfCode code text
  | e => .other (toString e)

def textOfBytes (bytes : ByteArray) : Except Files.Fault String :=
  match String.fromUTF8? bytes with
  | some text => .ok text
  | none => .error .notText

/-- The paths that lead to the input. -/
def inputPaths : List String := ["/dev/stdin", "/dev/fd/0", "/proc/self/fd/0"]

/-- Looks at a path. A file that may not be read is a file all the same. -/
def inspect (path : String) : IO Files.Entry := do
  if inputPaths.contains path then return .device .input
  if path = "/dev/null" then return .device .null
  try
    let bytes ← IO.FS.readBinFile path
    return .file (textOfBytes bytes)
  catch e =>
    match faultOfError e with
    | .notPermitted => return .file (.error .notPermitted)
    | fault => return .absent fault

/-- Reads a stream to its end. -/
partial def readAll (stream : IO.FS.Stream) (found : ByteArray) : IO ByteArray := do
  let bytes ← stream.read 65536
  if bytes.isEmpty then return found else readAll stream (found ++ bytes)

def readInput : IO (Except Files.Fault String) := do
  try
    return textOfBytes (← readAll (← IO.getStdin) .empty)
  catch e =>
    return .error (faultOfError e)

/-- The environment variables that count. -/
def variableNames : List String := ["CQLG_CONFIG", "HOME", "XDG_CONFIG_HOME"]

def readVariables : IO (String → Option String) := do
  let values ← variableNames.mapM fun name => do return (name, ← IO.getEnv name)
  return fun name => (values.lookup name).join

def usageLine : String :=
  "Usage: cqlg [--config FILE] [-v] compile PATH [-b] [-f text|json] | bind QUERY [-b VALUES]... | " ++
    "strip QUERY | config\n"

def helpPage (fallback : Option String) : String :=
  "Compile query descriptors to CQL\n\n" ++ usageLine ++
    "\nSettings file: --config FILE [env: CQLG_CONFIG=" ++ fallback.getD "" ++ "]\n"

def wording : Command.Wording := ⟨fun _ fallback => helpPage fallback, fun _ _ => usageLine⟩

/-- What a request may look at. -/
def surroundings (request : Command.Request) (environment : String → Option String) :
    IO Command.Surroundings := do
  let entries ← (request.paths environment).mapM fun path => do return (path, ← inspect path)
  let input ←
    if request.readsInput || entries.any fun looked => looked.2.isInput then readInput
    else pure (.ok "")
  return ⟨⟨fun path => (entries.lookup path).getD (.absent .notFound), input⟩, environment⟩

end CqlStatements.Program

open CqlStatements CqlStatements.Program in
def main (arguments : List String) : IO UInt32 := do
  let environment ← readVariables
  let around ←
    match Command.Request.ofArguments (environment "CQLG_CONFIG") arguments with
    | .ok request => surroundings request environment
    | .error _ => pure ⟨⟨fun _ => .absent .notFound, .ok ""⟩, environment⟩
  let result := Command.run wording arguments around
  IO.print result.output
  IO.eprint result.errorText
  return result.exitCode.toUInt32
