import CqlStatements.Proofs.Toml.Documents

/-!
# What is read can be written

There are many words that are not numbers, but only one of them is ever read: a float comes from digits,
which stand for a number or for infinity, or from a word. So the floats at the top of a document can be
written and come back as they are. A line can change an entry at the top only by making a table of it,
which is why nothing has to be known about what stands inside tables.
-/
namespace CqlStatements.Toml

section Floats

theorem canonical_of_number {x : Binary64} (number : x.isNaN = false) : Canonical x := by
  intro word
  rw [number] at word
  cases word

theorem canonical_infinity (negative : Bool) : Canonical (.infinity negative) := by
  apply canonical_of_number
  cases negative <;> decide

theorem canonical_ofMagnitude (negative : Bool) {magnitude : Nat}
    (small : magnitude ≤ Binary64.infiniteMagnitude) :
    Canonical (.ofMagnitude negative magnitude) := by
  rcases Nat.lt_or_eq_of_le small with less | rfl
  · apply canonical_of_number
    exact isNaN_of_isFinite (Binary64.isFinite_ofMagnitude negative less)
  · exact canonical_infinity negative

theorem canonical_magnitudeOfRatio (negative : Bool) (num den : Nat) :
    Canonical (.ofMagnitude negative (Binary64.magnitudeOfRatio num den)) := by
  apply canonical_ofMagnitude
  unfold Binary64.magnitudeOfRatio
  split
  · exact Nat.zero_le _
  · exact Nat.min_le_left _ _

theorem canonical_ofInt (n : Int) : Canonical (.ofInt n) := canonical_magnitudeOfRatio _ _ _

theorem canonical_toBinary64 (n : Numeral) : Canonical n.toBinary64 := by
  unfold Numeral.toBinary64 Binary64.ofDecimal
  dsimp only
  split
  · exact canonical_ofMagnitude _ (Nat.zero_le _)
  split
  · exact canonical_infinity _
  split
  · exact canonical_magnitudeOfRatio _ _ _
  · exact canonical_magnitudeOfRatio _ _ _

end Floats

section Values

/-- A value that is no float or a canonical one. -/
def CanonicalValue : Toml → Prop
  | .float x => Canonical x
  | _ => True

variable {cs rest : List Char} {v : Toml}

theorem canonical_of_readInteger? (read : readInteger? cs = some (v, rest)) : CanonicalValue v := by
  have based {base : Nat} {cs : List Char} (read : readBased? base cs = some (v, rest)) :
      CanonicalValue v := by
    simp only [readBased?, Option.bind_eq_bind, Option.bind_eq_some_iff] at read
    obtain ⟨_, _, _, _, made⟩ := read
    cases made
    trivial
  unfold readInteger? at read
  split at read
  · exact based read
  · exact based read
  · exact based read
  · simp only [Option.bind_eq_bind, Option.bind_eq_some_iff] at read
    obtain ⟨_, _, _, _, made⟩ := read
    cases made
    trivial

theorem canonical_of_readFloat? (read : readFloat? cs = some (v, rest)) : CanonicalValue v := by
  unfold readFloat? at read
  dsimp only at read
  split at read
  · cases read
    exact canonical_infinity _
  · cases read
    exact fun _ => rfl
  · simp only [Option.bind_eq_bind, Option.bind_eq_some_iff] at read
    obtain ⟨_, _, _, _, _, _, made⟩ := read
    split at made
    · cases made
    · cases made
      exact canonical_toBinary64 _

theorem canonical_of_readNumber? (read : readNumber? cs = some (v, rest)) : CanonicalValue v := by
  unfold readNumber? at read
  rcases Option.or_eq_some_iff.mp read with read | ⟨_, read⟩
  · rcases Option.or_eq_some_iff.mp read with read | ⟨_, read⟩
    · obtain ⟨_, _, made⟩ := Option.map_eq_some_iff.mp read
      cases made
      trivial
    · exact canonical_of_readFloat? read
  · exact canonical_of_readInteger? read

theorem canonical_of_readValue? {steps room : Nat} (read : readValue? steps room cs = some (v, rest)) :
    CanonicalValue v := by
  have wrapped {α : Type} {f : α → Toml × List Char} {found : Option α}
      (read : found.map f = some (v, rest)) (other : ∀ x, CanonicalValue (f x).1) :
      CanonicalValue v := by
    obtain ⟨x, _, made⟩ := Option.map_eq_some_iff.mp read
    have := other x
    rw [made] at this
    exact this
  cases steps with
  | zero => cases read
  | succ steps =>
      rw [readValue?.eq_def] at read
      dsimp only at read
      split at read
      · cases read
      split at read
      · exact wrapped read (fun _ => trivial)
      split at read
      · split at read
        · cases read
        · exact wrapped read (fun _ => trivial)
      split at read
      · split at read
        · cases read
        · split at read
          · cases read
            trivial
          · exact wrapped read (fun _ => trivial)
      split at read
      · exact wrapped read (fun _ => trivial)
      split at read
      · exact wrapped read (fun _ => trivial)
      · exact canonical_of_readNumber? read

end Values

section Lines

/-- The entries of a table with floats that can be written. -/
def CanonicalEntries (entries : Entries) : Prop := ∀ entry ∈ entries, CanonicalValue entry.2

/-- A line that adds no other float. -/
def CanonicalLine : Line → Prop
  | .assignment _ _ value => CanonicalValue value
  | _ => True

theorem canonical_of_readLine? {cs rest : List Char} {line : Line}
    (read : readLine? cs = some (line, rest)) : CanonicalLine line := by
  unfold readLine? at read
  split at read
  · simp only [Option.bind_eq_bind, Option.bind_eq_some_iff] at read
    obtain ⟨_, _, _, _, _, _, made⟩ := read
    cases made
    trivial
  · simp only [Option.bind_eq_bind, Option.bind_eq_some_iff] at read
    obtain ⟨_, _, _, _, made⟩ := read
    cases made
    trivial
  · simp only [Option.bind_eq_bind, Option.bind_eq_some_iff] at read
    obtain ⟨_, _, _, _, _, value, _, _, made⟩ := read
    cases made
    exact canonical_of_readValue? value

theorem canonical_of_readLines? {steps : Nat} {cs : List Char} {lines : List Line}
    (read : readLines? steps cs = some lines) : ∀ line ∈ lines, CanonicalLine line := by
  induction steps generalizing cs lines with
  | zero => cases read
  | succ steps ih =>
      rw [readLines?] at read
      split at read
      · cases read
        exact List.forall_mem_nil _
      · simp only [Option.bind_eq_bind, Option.bind_eq_some_iff] at read
        obtain ⟨_, line, _, others, made⟩ := read
        cases made
        exact List.forall_mem_cons.mpr ⟨canonical_of_readLine? line, ih others⟩

variable {entries made : Entries}

theorem CanonicalEntries.concat (canonical : CanonicalEntries entries) (key : String) {value : Toml}
    (own : CanonicalValue value) : CanonicalEntries (entries ++ [(key, value)]) := by
  refine List.forall_mem_append.mpr ⟨canonical, ?_⟩
  rw [List.forall_mem_singleton]
  exact own

theorem CanonicalEntries.replace (canonical : CanonicalEntries entries) (key : String) {value : Toml}
    (own : CanonicalValue value) : CanonicalEntries (Toml.replace key value entries) := by
  induction entries with
  | nil => exact canonical
  | cons entry entries ih =>
      obtain ⟨first, others⟩ := List.forall_mem_cons.mp canonical
      rw [Toml.replace]
      split
      · exact List.forall_mem_cons.mpr ⟨own, others⟩
      · exact List.forall_mem_cons.mpr ⟨first, ih others⟩

/-- An action at the end of a path changes nothing at the top but tables, unless it acts there. -/
theorem CanonicalEntries.update {way : Way} {action : Origin → Entries → Option Entries}
    (kept : ∀ {origin made}, action origin entries = some made → CanonicalEntries made)
    (canonical : CanonicalEntries entries) {path : List String} {origin : Origin}
    (acted : Toml.update way action path origin entries = some made) : CanonicalEntries made := by
  cases path with
  | nil => exact kept acted
  | cons key path =>
      rw [Toml.update] at acted
      split at acted
      · obtain ⟨_, _, rfl⟩ := Option.map_eq_some_iff.mp acted
        exact canonical.concat key trivial
      · split at acted
        · obtain ⟨_, _, rfl⟩ := Option.map_eq_some_iff.mp acted
          exact canonical.replace key trivial
        · cases acted
      · split at acted
        · obtain ⟨_, _, rfl⟩ := Option.map_eq_some_iff.mp acted
          exact canonical.replace key trivial
        · cases acted
      · cases acted

theorem CanonicalEntries.assign (canonical : CanonicalEntries entries) {path : List String}
    {key : String} {value : Toml} (own : CanonicalValue value) {origin : Origin}
    (assigned : Toml.assign path key value origin entries = some made) : CanonicalEntries made := by
  refine canonical.update ?_ assigned
  intro origin made added
  split at added
  · cases added
    exact canonical.concat key own
  · cases added

theorem CanonicalEntries.openTable (canonical : CanonicalEntries entries) {key : String}
    (opened : Toml.openTable key entries = some made) : CanonicalEntries made := by
  unfold Toml.openTable at opened
  split at opened
  · cases opened
    exact canonical.concat key trivial
  · cases opened
    exact canonical.replace key trivial
  · cases opened

theorem CanonicalEntries.openElement (canonical : CanonicalEntries entries) {key : String}
    (opened : Toml.openElement key entries = some made) : CanonicalEntries made := by
  unfold Toml.openElement at opened
  split at opened
  · cases opened
    exact canonical.concat key trivial
  · cases opened
    exact canonical.replace key trivial
  · cases opened

/-- One line keeps the floats at the top of the document canonical. -/
theorem canonical_add? {d next : Draft} {line : Line} (own : CanonicalLine line)
    (canonical : CanonicalEntries d.root) (added : d.add? line = some next) :
    CanonicalEntries next.root := by
  cases line with
  | assignment path key value =>
      obtain ⟨root, updated, rfl⟩ := Option.map_eq_some_iff.mp added
      exact canonical.update (fun assigned => canonical.assign own assigned) updated
  | tableHeader path key =>
      obtain ⟨root, updated, rfl⟩ := Option.map_eq_some_iff.mp added
      exact canonical.update (fun opened => canonical.openTable opened) updated
  | elementHeader path key =>
      obtain ⟨root, updated, rfl⟩ := Option.map_eq_some_iff.mp added
      exact canonical.update (fun opened => canonical.openElement opened) updated

theorem canonical_foldlM {d last : Draft} {lines : List Line}
    (each : ∀ line ∈ lines, CanonicalLine line) (canonical : CanonicalEntries d.root)
    (made : lines.foldlM Draft.add? d = some last) : CanonicalEntries last.root := by
  induction lines generalizing d with
  | nil =>
      cases made
      exact canonical
  | cons line lines ih =>
      rw [List.forall_mem_cons] at each
      rw [List.foldlM_cons] at made
      obtain ⟨next, added, others⟩ := Option.bind_eq_some_iff.mp made
      exact ih each.2 (canonical_add? each.1 canonical added) others

/-- The floats at the top of a document that was read are canonical. -/
theorem canonical_of_ofText? {text : String} (read : ofText? text = some entries) :
    CanonicalEntries entries := by
  simp only [ofText?, Option.bind_eq_bind, Option.bind_eq_some_iff] at read
  obtain ⟨lines, read, made⟩ := read
  obtain ⟨last, folded, rfl⟩ := Option.map_eq_some_iff.mp made
  have nothing : CanonicalEntries (Draft.root ⟨[], []⟩) := List.forall_mem_nil _
  exact canonical_foldlM (canonical_of_readLines? read) nothing folded

theorem CanonicalEntries.lookup (canonical : CanonicalEntries entries) {key : String} {value : Toml}
    (found : entries.lookup key = some value) : CanonicalValue value := by
  obtain ⟨front, back, rfl, -⟩ := List.lookup_eq_some_iff.mp found
  exact canonical (key, value) (by simp)

end Lines

end CqlStatements.Toml
