import CqlStatements.Config.Discovery
import CqlStatements.Proofs.Fallible

/-!
# Settings that were accepted

Settings are accepted if the document can be read, each setting takes its value, and they can be used.
Numbers come from integers of 64 bits, so accepted settings can be written again.
-/
namespace CqlStatements.Config

section Fields

variable {α : Type} {entries : Toml.Entries} {key : String}

/-- The readers of the settings. -/
def readPort? (value : Toml) : Option UInt16 := (readNat? UInt16.size value).map UInt16.ofNat

def readSeconds? (value : Toml) : Option UInt64 := (readNat? UInt64.size value).map UInt64.ofNat

def readPageSize? (value : Toml) : Option UInt32 := (readNat? UInt32.size value).map UInt32.ofNat

def readOptional? (value : Toml) : Option (Option String) := some <$> readString? value

/-- Each setting takes its value from the entries. -/
structure Takes (entries : Toml.Entries) (c : Config) : Prop where
  hosts : setting? entries "hosts" (readList? readString?) ["127.0.0.1"] = some c.hosts
  ports : setting? entries "ports" (readList? readPort?) [9042] = some c.ports
  keyspace : setting? entries "keyspace" readString? "" = some c.keyspace
  username : setting? entries "username" readOptional? none = some c.username
  password : setting? entries "password" readOptional? none = some c.password
  timeout : setting? entries "timeout" readSeconds? 30 = some c.timeout
  connectTimeout :
    setting? entries "connect_timeout" readFloat? (Binary64.ofInt 5) = some c.connectTimeout
  requestTimeout :
    setting? entries "request_timeout" readFloat? (Binary64.ofInt 12) = some c.requestTimeout
  pageSize : setting? entries "page_size" readPageSize? 500 = some c.pageSize
  consistency : setting? entries "consistency" readConsistency? .localOne = some c.consistency
  allowFiltering : setting? entries "allow_filtering" readBool? false = some c.allowFiltering

theorem ofEntries?_eq_some_iff {c : Config} : ofEntries? entries = some c ↔ Takes entries c := by
  constructor
  · intro read
    unfold ofEntries? at read
    simp only [Option.bind_eq_bind, Option.bind_eq_some_iff] at read
    obtain ⟨hosts, h₁, ports, h₂, keyspace, h₃, username, h₄, password, h₅, timeout, h₆, connect, h₇,
      request, h₈, pages, h₉, level, h₁₀, filtering, h₁₁, made⟩ := read
    cases made
    exact ⟨h₁, h₂, h₃, h₄, h₅, h₆, h₇, h₈, h₉, h₁₀, h₁₁⟩
  · intro takes
    obtain ⟨h₁, h₂, h₃, h₄, h₅, h₆, h₇, h₈, h₉, h₁₀, h₁₁⟩ := takes
    unfold ofEntries?
    simp only [Option.bind_eq_bind, Option.bind_eq_some_iff]
    exact ⟨_, h₁, _, h₂, _, h₃, _, h₄, _, h₅, _, h₆, _, h₇, _, h₈, _, h₉, _, h₁₀, _, h₁₁, rfl⟩

/-- What a setting is read to comes from its default or from the value of its key. -/
theorem of_setting? {P : α → Prop} {read? : Toml → Option α} {fallback x : α}
    (setting : setting? entries key read? fallback = some x) (default : P fallback)
    (read : ∀ value, entries.lookup key = some value → read? value = some x → P x) : P x := by
  unfold setting? at setting
  split at setting
  · obtain rfl := Option.some.inj setting
    exact default
  · rename_i value found
    exact read value found setting

end Fields

/-- A natural number that is read is below its bound and within 64 bits. -/
theorem readNat?_bounds {bound n : Nat} {value : Toml} (read : readNat? bound value = some n) :
    n < bound ∧ (n : Int) ≤ Int64.maxValue.toInt := by
  cases value with
  | integer word =>
      rw [readNat?] at read
      split at read
      · rename_i range
        have high : word.toInt ≤ Int64.maxValue.toInt := Int64.toInt_le word
        cases read
        omega
      · cases read
  | _ => cases read

section Texts

variable {text : String} {c : Config}

theorem ofTomlText_eq_ok_iff : ofTomlText text = .ok c ↔
    ∃ entries, Toml.ofText? text = some entries ∧ Takes entries c ∧ c.validate = .ok () := by
  unfold ofTomlText
  cases Toml.ofText? text with
  | none => simp
  | some entries =>
      simp only [Option.some.injEq, exists_eq_left', ← ofEntries?_eq_some_iff]
      cases ofEntries? entries with
      | none => simp
      | some found =>
          simp only [Option.some.injEq]
          constructor
          · intro accepted
            obtain ⟨_, valid, same⟩ := Fallible.bind_eq_ok_iff.mp accepted
            cases same
            exact ⟨rfl, valid⟩
          · rintro ⟨rfl, valid⟩
            exact Fallible.bind_eq_ok_iff.mpr ⟨(), valid, rfl⟩

/-- The timeout is an integer of a document. -/
def Writable (c : Config) : Prop := (c.timeout.toNat : Int) ≤ Int64.maxValue.toInt

theorem word?_timeout (writable : c.Writable) :
    Integer.word? c.timeout.toNat = some (Int64.ofInt c.timeout.toNat) := by
  have low : Int64.minValue.toInt ≤ (c.timeout.toNat : Int) := by
    have : Int64.minValue.toInt ≤ 0 := by decide
    omega
  rw [Integer.word?, if_pos ⟨low, writable⟩]

/-- The entries of settings with a timeout that fits. -/
def entries (c : Config) : Toml.Entries :=
  [("hosts", .array (c.hosts.map .string)),
      ("ports", .array (c.ports.map fun port => ofNat port.toNat)),
      ("keyspace", .string c.keyspace)] ++
    optionalEntry "username" c.username ++ optionalEntry "password" c.password ++
    [("timeout", .integer (Int64.ofInt c.timeout.toNat)),
      ("connect_timeout", .float c.connectTimeout),
      ("request_timeout", .float c.requestTimeout),
      ("page_size", ofNat c.pageSize.toNat),
      ("consistency", .string c.consistency.name),
      ("allow_filtering", .boolean c.allowFiltering)]

theorem toEntries?_of_writable (writable : c.Writable) : c.toEntries? = some c.entries := by
  rw [toEntries?, word?_timeout writable]
  rfl

theorem writable_of_accepted (accepted : ofTomlText text = .ok c) : c.Writable := by
  obtain ⟨entries, _, takes, _⟩ := ofTomlText_eq_ok_iff.mp accepted
  refine of_setting? (P := fun x => (x.toNat : Int) ≤ Int64.maxValue.toInt) takes.timeout (by decide) ?_
  intro value _ read
  obtain ⟨n, natural, same⟩ := Option.map_eq_some_iff.mp read
  have bounds := readNat?_bounds natural
  rw [← same, UInt64.toNat_ofNat_of_lt' bounds.1]
  exact bounds.2

theorem maskedTomlText_of_writable (writable : c.Writable) :
    c.maskedTomlText = .ok (Toml.documentText c.masked.entries) := by
  have covered : c.masked.Writable := writable
  rw [maskedTomlText, toEntries?_of_writable covered]

end Texts

end CqlStatements.Config
