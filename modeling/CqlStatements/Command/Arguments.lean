import CqlStatements.Text

/-!
# Command line arguments

The arguments name a task, and options stand before and behind its name. Some options belong to every
task and some to one. In each of the two places an option may stand once, except that values to bind add
up. Options have a long name, a letter, or both. Letters may be joined behind one dash, and the value of
an option may be joined to its name. A value in an argument of its own must not begin with a dash, unless
it is one dash and nothing else. What stands behind two dashes is no option.

Arguments are taken from left to right. The first one that cannot be taken ends the run, and so does an
option that asks for the version or for help; whichever comes first decides. A value in an argument of its
own is looked at when the next argument is taken; if that is the name of the task, what stands behind it
comes first. Help is also a word in the place of the task.
-/
namespace CqlStatements.Command

/-- The names of the tasks. -/
inductive Verb where
  | compile
  | bind
  | strip
  | config
deriving DecidableEq, Repr

def Verb.ofWord? (word : String) : Option Verb :=
  if word = "compile" then some .compile
  else if word = "bind" then some .bind
  else if word = "strip" then some .strip
  else if word = "config" then some .config
  else none

inductive Format where
  | text
  | json
deriving DecidableEq, Repr

def Format.ofWord? (word : String) : Option Format :=
  if word = "text" then some .text
  else if word = "json" then some .json
  else none

/-- What is to be done. -/
inductive Task where
  | compile (path : String) (bound : Bool) (format : Format)
  | bind (query : String) (values : List String)
  | strip (query : String)
  | config
deriving DecidableEq, Repr

/-- A task, and the settings file asked for. -/
structure Request where
  configPath : Option String
  task : Task
deriving DecidableEq, Repr

/-- Why there is no task to be done. -/
inductive Stop where
  /-- The arguments do not fit together. -/
  | usage
  /-- The version is asked for. -/
  | version
  /-- Help is asked for. -/
  | help
deriving DecidableEq, Repr

inductive Switch where
  | config
  | verbose
  | version
  | help
  | bound
  | format
  | bind
deriving DecidableEq, Repr

/-- The place of an option: behind a verb or, without one, before it. -/
abbrev Place := Option Verb

namespace Switch

def takesValue : Switch → Bool
  | config | format | bind => true
  | verbose | version | help | bound => false

def longName : Switch → String
  | config => "config"
  | verbose => "verbose"
  | version => "version"
  | help => "help"
  | bound => "bound"
  | format => "format"
  | bind => "bind"

def letter? : Switch → Option Char
  | config => none
  | verbose => some 'v'
  | version => some 'V'
  | help => some 'h'
  | bound => some 'b'
  | format => some 'f'
  | bind => some 'b'

/-- The options that may stand in a place. -/
def allowed : Place → List Switch
  | none => [config, verbose, version, help]
  | some .compile => [config, verbose, bound, format, help]
  | some .bind => [config, verbose, bind, help]
  | some .strip | some .config => [config, verbose, help]

def ofLongName? (place : Place) (name : String) : Option Switch :=
  (allowed place).find? fun switch => switch.longName == name

def ofLetter? (place : Place) (c : Char) : Option Switch :=
  (allowed place).find? fun switch => switch.letter? == some c

end Switch

/-- What the arguments in one place have said so far. -/
structure Found where
  config : Option String := none
  verbose : Bool := false
  bound : Bool := false
  format : Option Format := none
  values : List String := []
  /-- The argument that is no option. -/
  word : Option String := none
deriving DecidableEq, Repr

namespace Found

/-- Takes an option without a value. -/
def raise (found : Found) : Switch → Except Stop Found
  | .version => .error .version
  | .help => .error .help
  | .verbose => if found.verbose then .error .usage else .ok { found with verbose := true }
  | .bound => if found.bound then .error .usage else .ok { found with bound := true }
  | .config | .format | .bind => .error .usage

/-- Takes an option with its value. A path is not empty, and a value to bind is split at its commas. -/
def assign (found : Found) (value : String) : Switch → Except Stop Found
  | .config =>
      if found.config.isSome || value.isEmpty then .error .usage
      else .ok { found with config := some value }
  | .format =>
      match found.format, Format.ofWord? value with
      | none, some format => .ok { found with format := some format }
      | _, _ => .error .usage
  | .bind => .ok { found with values := found.values ++ Text.split ',' value }
  | .verbose | .version | .help | .bound => .error .usage

/-- Takes an argument that is no option behind a verb. Every task but one has such an argument, and none
has a second one. -/
def addWord (found : Found) (verb : Verb) (word : String) : Except Stop Found :=
  match verb, found.word with
  | .compile, none => if word.isEmpty then .error .usage else .ok { found with word := some word }
  | .bind, none | .strip, none => .ok { found with word := some word }
  | _, _ => .error .usage

end Found

/-- The forms of an argument. -/
inductive Argument where
  | word
  | twoDashes
  | long (name : String) (value : Option String)
  | letters (cs : List Char)
deriving DecidableEq, Repr

def Argument.ofChars : List Char → Argument
  | ['-', '-'] => .twoDashes
  | '-' :: '-' :: cs =>
      .long (String.ofList (cs.takeWhile (· != '=')))
        (match cs.dropWhile (· != '=') with
        | [] => none
        | _ :: value => some (String.ofList value))
  | '-' :: c :: cs => .letters (c :: cs)
  | _ => .word

/-- Takes joined letters. A letter whose option has a value takes the rest for it, without an equals sign
at the front; if there is no rest, the option is left waiting for its value. -/
def takeLetters (place : Place) (found : Found) : List Char → Except Stop (Found × Option Switch)
  | [] => .ok (found, none)
  | c :: cs =>
      match Switch.ofLetter? place c with
      | none => .error .usage
      | some switch =>
          if switch.takesValue then
            match cs with
            | [] => .ok (found, some switch)
            | '=' :: value => do .ok (← found.assign (String.ofList value) switch, none)
            | value => do .ok (← found.assign (String.ofList value) switch, none)
          else do
            let found ← found.raise switch
            takeLetters place found cs

/-- Takes the arguments in one place, given an option that waits for its value. Before the verb the first
word ends the place and stays with the arguments that are left over; what was found before it may be the
fault of a value that was not yet looked at. -/
def takeArguments (place : Place) (found : Except Stop Found) (waiting : Option Switch) :
    List String → Except Stop (Except Stop Found × List String)
  | [] => if waiting.isSome then .error .usage else .ok (found, [])
  | argument :: rest =>
      match Argument.ofChars argument.toList, waiting, place with
      | .word, some switch, _ =>
          takeArguments place (do (← found).assign argument switch) none rest
      | .word, none, none => .ok (found, argument :: rest)
      | .word, none, some verb => do
          let found ← (← found).addWord verb argument
          takeArguments place (.ok found) none rest
      | .twoDashes, none, none => .error .usage
      | .twoDashes, none, some verb => do
          let found ← rest.foldlM (fun found word => found.addWord verb word) (← found)
          .ok (.ok found, [])
      | .long name value, none, _ => do
          let found ← found
          match Switch.ofLongName? place name, value with
          | none, _ => .error .usage
          | some switch, none =>
              if switch.takesValue then takeArguments place (.ok found) (some switch) rest
              else do
                let found ← found.raise switch
                takeArguments place (.ok found) none rest
          | some switch, some value => do
              let found ← found.assign value switch
              takeArguments place (.ok found) none rest
      | .letters cs, none, _ => do
          let (found, waiting) ← takeLetters place (← found) cs
          takeArguments place (.ok found) waiting rest
      | _, some _, _ => .error .usage

/-- The task of a verb. -/
def Found.task (found : Found) (verb : Verb) : Except Stop Task :=
  match verb, found.word with
  | .compile, some path => .ok (.compile path found.bound (found.format.getD .text))
  | .bind, some query => .ok (.bind query found.values)
  | .strip, some query => .ok (.strip query)
  | .config, none => .ok .config
  | _, _ => .error .usage

/-- What the word for help comes to: there is help about the command, about each task and about help. -/
def helpStop : List String → Stop
  | [] => .help
  | [topic] => if topic = "help" ∨ (Verb.ofWord? topic).isSome then .help else .usage
  | _ => .usage

/-- What the arguments say by themselves. -/
structure Arguments where
  before : Found
  behind : Found
  task : Task
deriving DecidableEq, Repr

def Arguments.ofList (arguments : List String) : Except Stop Arguments := do
  let (before, rest) ← takeArguments none (.ok {}) none arguments
  match rest with
  | [] => .error .usage
  | word :: rest =>
      if word = "help" then .error (helpStop rest)
      else
        match Verb.ofWord? word with
        | none => .error .usage
        | some verb =>
            let (behind, _) ← takeArguments (some verb) (.ok {}) none rest
            let behind ← behind
            let task ← behind.task verb
            .ok ⟨← before, behind, task⟩

/-- The settings file asked for: behind the verb, before it, or by a variable that stands in wherever the
option is missing. An empty variable names no file. -/
def settingsPath (fallback : Option String) (before behind : Found) : Except Stop (Option String) :=
  if fallback = some "" ∧ (before.config.isNone ∨ behind.config.isNone) then .error .usage
  else .ok ((behind.config.or before.config).or fallback)

/-- The request that the arguments make. -/
def Request.ofArguments (fallback : Option String) (arguments : List String) :
    Except Stop Request := do
  let said ← Arguments.ofList arguments
  let configPath ← settingsPath fallback said.before said.behind
  .ok ⟨configPath, said.task⟩

end CqlStatements.Command
