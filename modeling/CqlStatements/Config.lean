import CqlStatements.Binary64
import CqlStatements.Text

/-!
# Connection settings

The settings say which hosts statements are sent to and how. A host and its port stand at the same place
in two lists; a host without a port of its own takes the first port. A blank host keeps its place in the
pairing but is no contact point. Settings can be used if some host is not blank and pages are not empty,
and the hosts are looked at first.
-/
namespace CqlStatements

/-- Which replicas have to answer a statement. -/
inductive Consistency where
  | any
  | one
  | two
  | three
  | quorum
  | all
  | localQuorum
  | eachQuorum
  | serial
  | localSerial
  | localOne
deriving DecidableEq, Repr

namespace Consistency

def levels : List Consistency :=
  [any, one, two, three, quorum, all, localQuorum, eachQuorum, serial, localSerial, localOne]

def name : Consistency → String
  | any => "ANY"
  | one => "ONE"
  | two => "TWO"
  | three => "THREE"
  | quorum => "QUORUM"
  | all => "ALL"
  | localQuorum => "LOCAL_QUORUM"
  | eachQuorum => "EACH_QUORUM"
  | serial => "SERIAL"
  | localSerial => "LOCAL_SERIAL"
  | localOne => "LOCAL_ONE"

def ofName? (s : String) : Option Consistency :=
  levels.find? fun level => level.name == s

theorem ofName?_name (level : Consistency) : ofName? level.name = some level := by
  cases level <;> decide

end Consistency

structure Config where
  hosts : List String := ["127.0.0.1"]
  ports : List UInt16 := [9042]
  keyspace : String := ""
  username : Option String := none
  password : Option String := none
  /-- In seconds, like the other two. -/
  timeout : UInt64 := 30
  connectTimeout : Binary64 := Binary64.ofInt 5
  requestTimeout : Binary64 := Binary64.ofInt 12
  pageSize : UInt32 := 500
  consistency : Consistency := .localOne
  /-- Whether selects ask for filtering. -/
  allowFiltering : Bool := false
deriving DecidableEq, Repr

namespace Config

/-- What can be wrong with settings or with their text. -/
inductive Fault where
  /-- The text is not TOML. -/
  | malformed
  /-- A value does not fit its setting. -/
  | unfit
  | noHost
  | emptyPages
  /-- A value is too large to be written. -/
  | tooLarge
deriving DecidableEq, Repr

def Fault.message (fault : Fault) : String :=
  "Configuration error: " ++
    match fault with
    | malformed => "the text is not TOML"
    | unfit => "a value does not fit its setting"
    | noHost => "DB hostname is not found, please check the hosts setting"
    | emptyPages => "page_size must be greater than zero"
    | tooLarge => "a value is too large to be written"

def validate (c : Config) : Except Fault Unit :=
  if c.hosts.all fun host => (Text.trim host).isEmpty then .error .noHost
  else if c.pageSize = 0 then .error .emptyPages
  else .ok ()

/-- A contact point. -/
structure Node where
  host : String
  port : UInt16
deriving DecidableEq, Repr

def defaultPort : UInt16 := 9042

/-- The port of the host at a place. -/
def portAt (c : Config) (place : Nat) : UInt16 :=
  c.ports[place]?.getD (c.ports.head?.getD defaultPort)

/-- The contact points in the order of the hosts. -/
def nodes (c : Config) : List Node :=
  c.hosts.zipIdx.filterMap fun (host, place) =>
    if (Text.trim host).isEmpty then none else some ⟨Text.trim host, c.portAt place⟩

/-- The settings with a set password covered up. -/
def masked (c : Config) : Config :=
  { c with password := c.password.map fun _ => "********" }

end Config
end CqlStatements
