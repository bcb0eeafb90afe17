import CqlStatements.Config
import CqlStatements.Toml.Reader
import CqlStatements.Toml.Writer

/-!
# Settings in TOML

Each setting is a key of the document; a key that is missing leaves the setting at its default, and a key
that is no setting is ignored. Numbers have to be within the range of their setting. Where a float is
expected an integer will do; nothing else is converted. A consistency level is its name, or a table whose
one key is that name and whose one value is empty.

Settings are written in their own order, without those that are not set.
-/
namespace CqlStatements.Config

def readString? : Toml → Option String
  | .string s => some s
  | _ => none

def readBool? : Toml → Option Bool
  | .boolean b => some b
  | _ => none

def readFloat? : Toml → Option Binary64
  | .float x => some x
  | .integer n => some (Binary64.ofInt n.toInt)
  | _ => none

/-- A natural number below a bound. -/
def readNat? (bound : Nat) : Toml → Option Nat
  | .integer n => if 0 ≤ n.toInt ∧ n.toInt < bound then some n.toInt.toNat else none
  | _ => none

def readList? {α : Type} (read? : Toml → Option α) : Toml → Option (List α)
  | .array items | .tables items => items.mapM read?
  | _ => none

/-- Whether a value is an empty array or table. -/
def isEmptyValue : Toml → Bool
  | .array items | .tables items => items.isEmpty
  | .table _ entries => entries.isEmpty
  | _ => false

def readConsistency? : Toml → Option Consistency
  | .string s => Consistency.ofName? s
  | .table _ [(name, value)] => if isEmptyValue value then Consistency.ofName? name else none
  | _ => none

/-- The value of a setting, which is the default if its key is missing. -/
def setting? {α : Type} (entries : Toml.Entries) (key : String) (read? : Toml → Option α)
    (fallback : α) : Option α :=
  match entries.lookup key with
  | none => some fallback
  | some value => read? value

def ofEntries? (entries : Toml.Entries) : Option Config := do
  let defaults : Config := {}
  let hosts ← setting? entries "hosts" (readList? readString?) defaults.hosts
  let ports ← setting? entries "ports"
    (readList? fun value => (readNat? UInt16.size value).map UInt16.ofNat) defaults.ports
  let keyspace ← setting? entries "keyspace" readString? defaults.keyspace
  let username ← setting? entries "username" (fun value => some <$> readString? value) none
  let password ← setting? entries "password" (fun value => some <$> readString? value) none
  let timeout ← setting? entries "timeout"
    (fun value => (readNat? UInt64.size value).map UInt64.ofNat) defaults.timeout
  let connectTimeout ← setting? entries "connect_timeout" readFloat? defaults.connectTimeout
  let requestTimeout ← setting? entries "request_timeout" readFloat? defaults.requestTimeout
  let pageSize ← setting? entries "page_size"
    (fun value => (readNat? UInt32.size value).map UInt32.ofNat) defaults.pageSize
  let consistency ← setting? entries "consistency" readConsistency? defaults.consistency
  let allowFiltering ← setting? entries "allow_filtering" readBool? defaults.allowFiltering
  some
    { hosts, ports, keyspace, username, password, timeout, connectTimeout, requestTimeout, pageSize,
      consistency, allowFiltering }

/-- Settings read from a text, if they can be used. -/
def ofTomlText (text : String) : Except Fault Config :=
  match Toml.ofText? text with
  | none => .error .malformed
  | some entries =>
      match ofEntries? entries with
      | none => .error .unfit
      | some c => do
          c.validate
          .ok c

/-- An entry for a setting that may be unset. -/
def optionalEntry (key : String) : Option String → Toml.Entries
  | none => []
  | some s => [(key, .string s)]

/-- A natural number as an integer of 64 bits. -/
def ofNat (n : Nat) : Toml := .integer (Int64.ofNat n)

/-- The entries of a document that holds the settings. The timeout has one bit more than the integers
of a document. -/
def toEntries? (c : Config) : Option Toml.Entries := do
  let timeout ← Integer.word? c.timeout.toNat
  some
    ([("hosts", .array (c.hosts.map .string)),
        ("ports", .array (c.ports.map fun port => ofNat port.toNat)),
        ("keyspace", .string c.keyspace)] ++
      optionalEntry "username" c.username ++ optionalEntry "password" c.password ++
      [("timeout", .integer timeout),
        ("connect_timeout", .float c.connectTimeout),
        ("request_timeout", .float c.requestTimeout),
        ("page_size", ofNat c.pageSize.toNat),
        ("consistency", .string c.consistency.name),
        ("allow_filtering", .boolean c.allowFiltering)])

/-- The text of the settings, in which a set password is covered up. -/
def maskedTomlText (c : Config) : Except Fault String :=
  match c.masked.toEntries? with
  | some entries => .ok (Toml.documentText entries)
  | none => .error .tooLarge

end CqlStatements.Config
