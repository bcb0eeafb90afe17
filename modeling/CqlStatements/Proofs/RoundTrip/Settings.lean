import CqlStatements.Proofs.Config.Acceptance
import CqlStatements.Proofs.Toml.Canonical

/-!
# Settings through TOML

Settings whose timeout fits a document and whose floats are canonical are written, and each of them is
read from the text again. Accepted settings are of this kind. The text that shows them covers up a set
password before anything is written, so it is read as the settings with the cover in place of the
password, whatever the password was.
-/
namespace CqlStatements.Config

section Lookup

variable {α : Type} {entries : Toml.Entries} {key : String} {value : Toml} {read? : Toml → Option α}
  {x : α}

/-- A setting is read from the one entry of its key. -/
theorem setting?_of_mem (distinct : (entries.map Prod.fst).Nodup) (member : (key, value) ∈ entries)
    (read : read? value = some x) {fallback : α} : setting? entries key read? fallback = some x := by
  rw [setting?, Toml.lookup_of_mem distinct member]
  exact read

/-- A setting that has no entry keeps its default. -/
theorem setting?_of_not_mem (absent : key ∉ entries.map Prod.fst) (read? : Toml → Option α)
    (fallback : α) : setting? entries key read? fallback = some fallback := by
  rw [setting?, Toml.lookup_of_not_mem absent]

/-- A setting that may be unset is read from its own entry, or from none. -/
theorem setting?_optional (distinct : (entries.map Prod.fst).Nodup) {s : Option String}
    (own : ∀ text ∈ s, (key, .string text) ∈ entries) (absent : s = none → key ∉ entries.map Prod.fst) :
    setting? entries key readOptional? none = some s := by
  cases s with
  | none => exact setting?_of_not_mem (absent rfl) _ _
  | some text =>
      have read : readOptional? (.string text) = some (some text) := rfl
      exact setting?_of_mem distinct (own text rfl) read

end Lookup

section Numbers

variable {bound n : Nat}

/-- A natural number within 64 bits is read from its integer. -/
theorem readNat?_ofInt (small : n < bound) (word : (n : Int) ≤ Int64.maxValue.toInt) :
    readNat? bound (.integer (Int64.ofInt n)) = some n := by
  have value : (Int64.ofInt n).toInt = n := by
    apply Int64.toInt_ofInt_of_le
    · omega
    · have : Int64.maxValue.toInt = 2 ^ 63 - 1 := by decide
      omega
  have range : 0 ≤ (n : Int) ∧ (n : Int) < bound := by omega
  rw [readNat?, value, if_pos range, Int.toNat_natCast]

theorem readNat?_ofNat (small : n < bound) (word : bound ≤ 2 ^ 63) :
    readNat? bound (ofNat n) = some n := by
  have value : Int64.ofNat n = Int64.ofInt n := rfl
  rw [ofNat, value]
  apply readNat?_ofInt small
  have : Int64.maxValue.toInt = 2 ^ 63 - 1 := by decide
  omega

theorem readPort?_ofNat (port : UInt16) : readPort? (ofNat port.toNat) = some port := by
  rw [readPort?, readNat?_ofNat port.toNat_lt (by decide), Option.map_some, UInt16.ofNat_toNat]

theorem readPageSize?_ofNat (pages : UInt32) : readPageSize? (ofNat pages.toNat) = some pages := by
  rw [readPageSize?, readNat?_ofNat pages.toNat_lt (by decide), Option.map_some, UInt32.ofNat_toNat]

theorem readSeconds?_ofInt {seconds : UInt64} (word : (seconds.toNat : Int) ≤ Int64.maxValue.toInt) :
    readSeconds? (.integer (Int64.ofInt seconds.toNat)) = some seconds := by
  rw [readSeconds?, readNat?_ofInt seconds.toNat_lt word, Option.map_some, UInt64.ofNat_toNat]

end Numbers

section Entries

/-- Settings that come back as they are: the timeout fits a document, and the floats are canonical. -/
structure Settled (c : Config) : Prop where
  timeout : c.Writable
  connectTimeout : Toml.Canonical c.connectTimeout
  requestTimeout : Toml.Canonical c.requestTimeout

variable {c : Config}

/-- The keys do not depend on what is written behind them. -/
theorem keys_entries (c : Config) : c.entries.map Prod.fst =
    ["hosts", "ports", "keyspace"] ++ (if c.username.isSome then ["username"] else []) ++
      (if c.password.isSome then ["password"] else []) ++
      ["timeout", "connect_timeout", "request_timeout", "page_size", "consistency", "allow_filtering"] := by
  have optional (key : String) (s : Option String) :
      (optionalEntry key s).map Prod.fst = if s.isSome then [key] else [] := by
    cases s <;> rfl
  simp [entries, optional]

theorem distinct_entries (c : Config) : (c.entries.map Prod.fst).Nodup := by
  rw [keys_entries]
  cases c.username.isSome <;> cases c.password.isSome <;> decide

theorem bare_of_mem_entries {entry : String × Toml} (member : entry ∈ c.entries) :
    Toml.Bare entry.1 := by
  have keys : ∀ key ∈ c.entries.map Prod.fst, Toml.Bare key := by
    rw [keys_entries]
    cases c.username.isSome <;> cases c.password.isSome <;> decide +kernel
  exact keys _ (List.mem_map_of_mem member)

theorem written_of_mem_entries (settled : c.Settled) {entry : String × Toml}
    (member : entry ∈ c.entries) : Toml.Written Toml.maxDepth entry.2 := by
  have optional {key : String} {s : Option String} (member : entry ∈ optionalEntry key s) :
      Toml.Written Toml.maxDepth entry.2 := by
    cases s with
    | none => cases member
    | some text =>
        obtain rfl := List.mem_singleton.mp member
        exact .string text
  simp only [entries, List.mem_append, List.mem_cons, List.not_mem_nil, or_false] at member
  rcases member with (((rfl | rfl | rfl) | username) | password) | rfl | rfl | rfl | rfl | rfl | rfl
  · apply Toml.Written.array
    rw [List.forall_mem_map]
    exact fun host _ => .string host
  · apply Toml.Written.array
    rw [List.forall_mem_map]
    exact fun port _ => .integer _
  · exact .string _
  · exact optional username
  · exact optional password
  · exact .integer _
  · exact .float settled.connectTimeout
  · exact .float settled.requestTimeout
  · exact .integer _
  · exact .string _
  · exact .boolean _

/-- The written settings are a document with the same entries. -/
theorem ofText?_entries (settled : c.Settled) :
    Toml.ofText? (Toml.documentText c.entries) = some c.entries := by
  apply Toml.ofText?_documentText
  · intro entry member
    exact ⟨bare_of_mem_entries member, written_of_mem_entries settled member⟩
  · exact distinct_entries c

/-- Each setting is read from its own entry. -/
theorem takes_entries (settled : c.Settled) : Takes c.entries c := by
  have distinct := distinct_entries c
  have string (s : String) : readString? (.string s) = some s := rfl
  have float (x : Binary64) : readFloat? (.float x) = some x := rfl
  have boolean (b : Bool) : readBool? (.boolean b) = some b := rfl
  have level : readConsistency? (.string c.consistency.name) = some c.consistency :=
    Consistency.ofName?_name c.consistency
  have hosts : readList? readString? (.array (c.hosts.map .string)) = some c.hosts :=
    Fallible.mapM_map_eq_some fun _ _ => rfl
  have ports : readList? readPort? (.array (c.ports.map fun port => ofNat port.toNat)) =
      some c.ports :=
    Fallible.mapM_map_eq_some fun port _ => readPort?_ofNat port
  constructor
  · exact setting?_of_mem distinct (by simp [entries]) hosts
  · exact setting?_of_mem distinct (by simp [entries]) ports
  · exact setting?_of_mem distinct (by simp [entries]) (string c.keyspace)
  · apply setting?_optional distinct
    · intro text set
      simp [entries, Option.mem_def.mp set, optionalEntry]
    · intro unset
      rw [keys_entries, unset]
      cases c.password.isSome <;> decide
  · apply setting?_optional distinct
    · intro text set
      simp [entries, Option.mem_def.mp set, optionalEntry]
    · intro unset
      rw [keys_entries, unset]
      cases c.username.isSome <;> decide
  · exact setting?_of_mem distinct (by simp [entries]) (readSeconds?_ofInt settled.timeout)
  · exact setting?_of_mem distinct (by simp [entries]) (float c.connectTimeout)
  · exact setting?_of_mem distinct (by simp [entries]) (float c.requestTimeout)
  · exact setting?_of_mem distinct (by simp [entries]) (readPageSize?_ofNat c.pageSize)
  · exact setting?_of_mem distinct (by simp [entries]) level
  · exact setting?_of_mem distinct (by simp [entries]) (boolean c.allowFiltering)

end Entries

section Accepted

variable {text : String} {c : Config}

theorem settled_of_accepted (accepted : ofTomlText text = .ok c) : c.Settled := by
  obtain ⟨found, document, takes, -⟩ := ofTomlText_eq_ok_iff.mp accepted
  have canonical := Toml.canonical_of_ofText? document
  have floats {key : String} {fallback x : Binary64} (default : Toml.Canonical fallback)
      (setting : setting? found key readFloat? fallback = some x) : Toml.Canonical x := by
    apply of_setting? setting default
    intro value member read
    cases value with
    | float y =>
        cases read
        exact canonical.lookup member
    | integer n =>
        cases read
        exact Toml.canonical_ofInt _
    | _ => cases read
  exact ⟨writable_of_accepted accepted, floats (Toml.canonical_ofInt 5) takes.connectTimeout,
    floats (Toml.canonical_ofInt 12) takes.requestTimeout⟩

theorem Settled.masked (settled : c.Settled) : c.masked.Settled :=
  ⟨settled.timeout, settled.connectTimeout, settled.requestTimeout⟩

/-- Covered settings show of a password only whether it is set. -/
theorem masked_eq_of_same {other : Config} (set : other.password.isSome = c.password.isSome)
    (same : { other with password := c.password } = c) : other.masked = c.masked := by
  have cover : other.password.map (fun _ => "********") = c.password.map fun _ => "********" := by
    cases hidden : c.password with
    | none =>
        rw [hidden, Option.isSome_none, Option.isSome_eq_false_iff, Option.isNone_iff_eq_none] at set
        rw [set]
    | some secret =>
        rw [hidden, Option.isSome_some, Option.isSome_iff_exists] at set
        obtain ⟨secret, found⟩ := set
        rw [found]
        rfl
  calc
    other.masked = { other with password := c.password.map fun _ => "********" } := by
      rw [masked, cover]
    _ = { other with password := c.password : Config }.masked := rfl
    _ = c.masked := by rw [same]

/-- Accepted settings are shown. What is shown is accepted again, as the settings with a set password
covered up, and it is the same whatever the password is. -/
theorem ofTomlText_maskedTomlText (accepted : ofTomlText text = .ok c) :
    ∃ shown, c.maskedTomlText = .ok shown ∧
      ofTomlText shown = .ok { c with password := c.password.map fun _ => "********" } ∧
      ∀ text' c', ofTomlText text' = .ok c' → c'.password.isSome = c.password.isSome →
        { c' with password := c.password } = c → c'.maskedTomlText = .ok shown := by
  have settled := (settled_of_accepted accepted).masked
  obtain ⟨-, -, -, usable⟩ := ofTomlText_eq_ok_iff.mp accepted
  have valid : c.masked.validate = .ok () := usable
  have made := maskedTomlText_of_writable (writable_of_accepted accepted)
  refine ⟨Toml.documentText c.masked.entries, made, ?_, ?_⟩
  · exact ofTomlText_eq_ok_iff.mpr
      ⟨c.masked.entries, ofText?_entries settled, takes_entries settled, valid⟩
  · intro text' c' _ set same
    rw [maskedTomlText, masked_eq_of_same set same]
    exact made

/-- Quotes of both kinds and in runs, backslashes, line breaks and other control characters. -/
def tricky (secret : String) : Config :=
  { hosts := ["it's \"h\"", "\"\"\"\r\n\\"]
    keyspace := "'''\n\\"
    username := some "\t\x7f"
    password := some secret
    requestTimeout := .nan }

def trickyText (secret : String) : String :=
  "hosts = [\"it's \\\"h\\\"\", \"\\\"\\\"\\\"\\r\\n\\\\\"]\nkeyspace = \"'''\\n\\\\\"\n" ++
    "username = \"\\t\\u007F\"\npassword = \"" ++ secret ++ "\"\nrequest_timeout = -nan\n"

theorem ofTomlText_maskedTomlText_tricky :
    ofTomlText (trickyText "fish") = .ok (tricky "fish") ∧
      ofTomlText (trickyText "sesame") = .ok (tricky "sesame") ∧
      ∃ shown, (tricky "fish").maskedTomlText = .ok shown ∧
        ofTomlText shown = .ok (tricky "********") ∧ (tricky "sesame").maskedTomlText = .ok shown := by
  have accepted : ofTomlText (trickyText "fish") = .ok (tricky "fish") := by decide +kernel
  have other : ofTomlText (trickyText "sesame") = .ok (tricky "sesame") := by decide +kernel
  obtain ⟨shown, made, read, alike⟩ := ofTomlText_maskedTomlText accepted
  exact ⟨accepted, other, shown, made, read, alike _ _ other rfl rfl⟩

end Accepted

end CqlStatements.Config
