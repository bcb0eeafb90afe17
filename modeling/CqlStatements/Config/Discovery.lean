import CqlStatements.Config.Toml
import CqlStatements.Files

/-!
# Finding the settings

Settings come from the file that is asked for. If none is asked for they come from the first of the usual
files that exists, and if none of these exists they are the defaults. A file that exists but cannot be
used is an error; it is not passed over for a later one.
-/
namespace CqlStatements.Config

/-- Why a file yields no settings. -/
inductive LoadError where
  | unreadable (fault : Files.Fault)
  | unusable (fault : Fault)
deriving DecidableEq, Repr

/-- The text of an error; one of reading is told twice, as an error and as its cause. -/
def LoadError.message : LoadError → String
  | unreadable fault => "IO error: " ++ fault.message ++ ": " ++ fault.message
  | unusable fault => fault.message

def load (files : Files) (path : String) : Except LoadError Config :=
  match files.read path with
  | .error fault => .error (.unreadable fault)
  | .ok text =>
      match ofTomlText text with
      | .error fault => .error (.unusable fault)
      | .ok c => .ok c

/-- Settings, with the path of the file that they come from unless they are the defaults. -/
structure Found where
  config : Config
  path : Option String
deriving DecidableEq, Repr

def loadFrom (files : Files) (path : String) : Except LoadError Found := do
  let config ← load files path
  .ok ⟨config, some path⟩

/-- The settings of the first candidate that is a file. -/
def firstExisting (files : Files) : List String → Except LoadError Found
  | [] => .ok ⟨{}, none⟩
  | path :: paths =>
      match files.entry path with
      | .file _ => loadFrom files path
      | .device _ | .absent _ => firstExisting files paths

/-- The settings of the file that is asked for, or else of the first candidate that is a file. -/
def discover (files : Files) (candidates : List String) : Option String → Except LoadError Found
  | some path => loadFrom files path
  | none => firstExisting files candidates

/-- The settings file in the working directory. -/
def localPath : String := "cqlg.toml"

/-- A path below a directory, with one slash more unless the directory ends with one. -/
def below (directory path : String) : String :=
  if directory.toList.getLast? = some '/' then directory ++ path else directory ++ "/" ++ path

/-- The directory of a user's settings: a variable of its own names it if the name starts at the root,
and otherwise it lies in the home directory. -/
def userDirectory? (environment : String → Option String) : Option String :=
  let home := ((environment "HOME").filter fun home => !home.isEmpty).map fun home => below home ".config"
  match environment "XDG_CONFIG_HOME" with
  | some directory => if directory.toList.head? = some '/' then some directory else home
  | none => home

/-- The usual settings files, the most specific one first. -/
def candidates (environment : String → Option String) : List String :=
  localPath ::
    ((userDirectory? environment).map fun directory => below directory "cqlg/config.toml").toList

end CqlStatements.Config
