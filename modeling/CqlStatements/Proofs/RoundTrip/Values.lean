import CqlStatements.Collection.Json
import CqlStatements.Proofs.Binary64.ReadBack
import CqlStatements.Proofs.Json.Layouts
import CqlStatements.Proofs.Json.Members

/-!
# Scalars and collections through JSON

A finite scalar is decoded from its own encoding and from nothing else that would make it a scalar of
another kind. A collection comes back as it was, except that the empty row of entries is written just as
the empty row of elements and comes back as that. What is decoded, from whatever text, is finite and is
no empty row of entries, so it always comes back as it was.
-/
namespace CqlStatements

namespace Scalar

def IsFinite : Scalar → Prop
  | .float x => x.isFinite = true
  | _ => True

instance : DecidablePred IsFinite
  | .float x => inferInstanceAs (Decidable (x.isFinite = true))
  | .null | .bool _ | .int _ | .string _ => .isTrue trivial

theorem ofInteger_toInt (n : Int64) : ofInteger n.toInt = .int n := by
  rw [ofInteger, Integer.word?_eq_some_iff.mpr rfl]

theorem toJson_float {x : Binary64} (h : (float x).IsFinite) :
    (float x).toJson = .number (Json.numeralOfFloat x) :=
  if_pos h

theorem ofJson?_toJson {x : Scalar} (h : x.IsFinite) : ofJson? x.toJson = some x := by
  cases x with
  | null | bool | string => rfl
  | int n =>
      have high : n.toInt < UInt64.size := by
        have below := n.toInt_lt
        have size : UInt64.size = 2 ^ 64 := rfl
        omega
      have read := Json.number?_numeralOfInt n.minValue_le_toInt high
      simp only [toJson, Json.ofInt, ofJson?, read, Option.map_some, ofInteger_toInt]
  | float x =>
      simp only [toJson_float h, ofJson?, Json.number?_numeralOfFloat h, Option.map_some]

/-- What is decoded by its shape alone can be taken in full, unless it is nested. -/
theorem fits_of_ofJson? {j : Json} {x : Scalar} (h : ofJson? j = some x) (room : Nat) :
    j.fits room = true := by
  cases j with
  | null | bool | string => simp [Json.fits]
  | unpaired | array | object | broken => cases h
  | number n =>
      obtain ⟨number, known, _⟩ := Option.map_eq_some_iff.mp h
      rw [Json.fits, known, Option.isSome_some]

theorem fits_toJson {x : Scalar} (h : x.IsFinite) (room : Nat) : x.toJson.fits room = true :=
  fits_of_ofJson? (ofJson?_toJson h) room

theorem decode_toJson {x : Scalar} (h : x.IsFinite) (room : Nat) :
    decode room x.toJson = .ok x :=
  Json.decodeWhole_eq_ok_iff.mpr ⟨fits_toJson h room, ofJson?_toJson h⟩

theorem isFinite_ofInteger {n : Int} (h : n.natAbs < 2 ^ 64) : (ofInteger n).IsFinite := by
  unfold ofInteger
  split
  · trivial
  · exact Binary64.isFinite_ofInt h

theorem isFinite_of_ofJson? {j : Json} {x : Scalar} (h : ofJson? j = some x) : x.IsFinite := by
  cases j with
  | null | bool | string => exact Option.some.inj h ▸ trivial
  | unpaired | array | object | broken => cases h
  | number n =>
      obtain ⟨number, known, rfl⟩ := Option.map_eq_some_iff.mp h
      rcases Json.number?_eq_some known with ⟨value, rfl, low, high⟩ | ⟨x, rfl, finite⟩
      · have least : Int64.minValue.toInt = -2 ^ 63 := rfl
        have size : UInt64.size = 2 ^ 64 := rfl
        exact isFinite_ofInteger (by omega)
      · exact finite

theorem decode_ensures : Json.Ensures decode IsFinite :=
  Json.decodeWhole_ensures fun _ _ => isFinite_of_ofJson?

end Scalar

namespace Collection

/-- All scalars of a collection, keys among them. -/
def scalars : Collection → List Scalar
  | elements items => items
  | entries pairs => pairs.flatMap fun pair => [pair.1, pair.2]

/-- A collection as it comes back from JSON. -/
def afterJson : Collection → Collection
  | entries [] => elements []
  | c => c

theorem afterJson_of_ne {c : Collection} (h : c ≠ entries []) : c.afterJson = c := by
  cases c with
  | elements => rfl
  | entries pairs =>
      cases pairs with
      | nil => exact absurd rfl h
      | cons => rfl

theorem toJson_afterJson (c : Collection) : c.afterJson.toJson = c.toJson := by
  by_cases h : c = entries []
  · subst h
    rfl
  · rw [afterJson_of_ne h]

/-- Without entries no kind of column tells the two empty rows apart. -/
theorem literal_afterJson (kind : Kind) (c : Collection) :
    c.afterJson.literal kind = c.literal kind := by
  by_cases h : c = entries []
  · subst h
    cases kind <;> rfl
  · rw [afterJson_of_ne h]

theorem entryOfJson?_array {key value : Scalar} (finiteKey : key.IsFinite)
    (finiteValue : value.IsFinite) :
    entryOfJson? (.array [key.toJson, value.toJson]) = some (key, value) := by
  simp [entryOfJson?, Scalar.ofJson?_toJson finiteKey, Scalar.ofJson?_toJson finiteValue]

theorem forall_entries {P : Scalar → Prop} {pairs : List (Scalar × Scalar)} :
    (∀ x ∈ (entries pairs).scalars, P x) ↔ ∀ pair ∈ pairs, P pair.1 ∧ P pair.2 := by
  simp only [scalars, List.mem_flatMap, List.mem_cons, List.not_mem_nil, or_false]
  constructor
  · intro h pair mem
    exact ⟨h _ ⟨pair, mem, .inl rfl⟩, h _ ⟨pair, mem, .inr rfl⟩⟩
  · rintro h x ⟨pair, mem, rfl | rfl⟩
    · exact (h pair mem).1
    · exact (h pair mem).2

theorem ofJson?_toJson {c : Collection} (h : ∀ x ∈ c.scalars, x.IsFinite) :
    ofJson? c.toJson = some c.afterJson := by
  cases c with
  | elements items =>
      have read : (items.map Scalar.toJson).mapM Scalar.ofJson? = some items :=
        Fallible.mapM_map_eq_some fun x mem => Scalar.ofJson?_toJson (h x mem)
      rw [toJson, ofJson?, read]
      rfl
  | entries pairs =>
      cases pairs with
      | nil => rfl
      | cons pair pairs =>
          -- An entry is an array and no scalar, so the row is not taken for elements.
          have noElements : ((pair :: pairs).map fun pair =>
              Json.array [pair.1.toJson, pair.2.toJson]).mapM Scalar.ofJson? = none := by
            rw [List.map_cons, List.mapM_cons]
            rfl
          have read : ((pair :: pairs).map fun pair =>
              Json.array [pair.1.toJson, pair.2.toJson]).mapM entryOfJson? = some (pair :: pairs) :=
            Fallible.mapM_map_eq_some fun pair mem =>
              entryOfJson?_array (forall_entries.mp h pair mem).1 (forall_entries.mp h pair mem).2
          simp only [toJson, ofJson?, noElements, read]
          rfl

theorem fits_toJson {c : Collection} (h : ∀ x ∈ c.scalars, x.IsFinite) (room : Nat) :
    c.toJson.fits (room + 2) = true := by
  cases c with
  | elements items => exact Json.fits_map fun x mem => Scalar.fits_toJson (h x mem) _
  | entries pairs =>
      refine Json.fits_map fun pair mem => ?_
      have finite := forall_entries.mp h pair mem
      simp only [Json.fits, Json.allFit, Scalar.fits_toJson finite.1, Scalar.fits_toJson finite.2,
        Bool.and_self]

theorem decode_toJson {c : Collection} (h : ∀ x ∈ c.scalars, x.IsFinite) (room : Nat) :
    decode (room + 2) c.toJson = .ok c.afterJson :=
  Json.decodeWhole_eq_ok_iff.mpr ⟨fits_toJson h room, ofJson?_toJson h⟩

/-- What can be told from a text that a collection is decoded from. -/
def IsDecoded (c : Collection) : Prop :=
  c ≠ entries [] ∧ ∀ x ∈ c.scalars, x.IsFinite

theorem entry_of_entryOfJson? {j : Json} {pair : Scalar × Scalar} (h : entryOfJson? j = some pair) :
    pair.1.IsFinite ∧ pair.2.IsFinite := by
  unfold entryOfJson? at h
  split at h
  · obtain ⟨key, readKey, h⟩ := Option.bind_eq_some_iff.mp h
    obtain ⟨value, readValue, h⟩ := Option.bind_eq_some_iff.mp h
    rw [← Option.some.inj h]
    exact ⟨Scalar.isFinite_of_ofJson? readKey, Scalar.isFinite_of_ofJson? readValue⟩
  · cases h

theorem isDecoded_of_ofJson? {j : Json} {c : Collection} (h : ofJson? j = some c) :
    c.IsDecoded := by
  cases j with
  | null | bool | number | string | unpaired | object | broken => cases h
  | array items =>
      rw [ofJson?] at h
      split at h
      · rename_i scalars read
        rw [← Option.some.inj h]
        have steps := Fallible.mapM_eq_some_iff.mp read
        exact ⟨nofun, Fallible.forall_of_forall₂ steps Scalar.isFinite_of_ofJson?⟩
      · rename_i noElements
        obtain ⟨pairs, read, rfl⟩ := Option.map_eq_some_iff.mp h
        have steps := Fallible.mapM_eq_some_iff.mp read
        refine ⟨?_, forall_entries.mpr (Fallible.forall_of_forall₂ steps entry_of_entryOfJson?)⟩
        -- Without an item the array would have been taken for elements.
        rintro same
        cases same
        cases steps
        cases noElements

theorem decode_ensures : Json.Ensures decode IsDecoded :=
  Json.decodeWhole_ensures fun _ _ => isDecoded_of_ofJson?

end Collection

namespace Mutation

/-- A mutation as it comes back from JSON. -/
def afterJson (m : Mutation) : Mutation := { m with value := m.value.afterJson }

theorem afterJson_of_ne {m : Mutation} (h : m.value ≠ .entries []) : m.afterJson = m := by
  rw [afterJson, Collection.afterJson_of_ne h]

theorem toJson_afterJson (m : Mutation) : m.afterJson.toJson = m.toJson := by
  simp only [toJson, afterJson, Collection.toJson_afterJson]

theorem literal_afterJson (m : Mutation) : m.afterJson.literal = m.literal :=
  Collection.literal_afterJson m.kind m.value

/-- What does not tell a mutation from the one that comes back does not tell their lists apart. -/
theorem map_map_afterJson {β : Type} {f : Mutation → β} (alike : ∀ m, f m.afterJson = f m)
    (ms : List Mutation) : (ms.map afterJson).map f = ms.map f := by
  rw [List.map_map]
  exact List.map_congr_left fun m _ => alike m

end Mutation

namespace Collection

theorem Kind.parse_name (kind : Kind) : parse kind.name = .ok kind := by
  cases kind <;> decide

theorem Change.parse_symbol (change : Change) : parse change.symbol = .ok change := by
  cases change <;> decide

theorem decodeParsed_string {α : Type} {parse : String → Except Error α} {text : String} {x : α}
    (h : parse text = .ok x) (room : Nat) : decodeParsed parse room (.string text) = .ok x :=
  Fallible.bind_eq_ok_iff.mpr ⟨text, Json.decodeText_string room text, by rw [h]⟩

theorem Change.decode?_symbol (change : Change) (room : Nat) :
    decode? room (.string change.symbol) = .ok (some change) :=
  Fallible.map_eq_ok_iff.mpr
    ⟨change, decodeParsed_string (Change.parse_symbol change) room, rfl⟩

end Collection

namespace Mutation

/-- The fields that the members of a mutation are decoded to. -/
def decodedFields (m : Mutation) : List (String × Field) :=
  [("kind", .kind m.kind), ("column", .column m.column), ("value", .value m.value.afterJson)] ++
    match m.change with
    | none => []
    | some change => [("operation", .operation (some change))]

theorem decode_record {m : Mutation} (h : ∀ x ∈ m.value.scalars, x.IsFinite) (room : Nat) :
    record.decode (room + 3) m.toJson = .ok m.decodedFields := by
  have kind : record.Decodes (room + 2) ("kind", .string m.kind.name) ("kind", .kind m.kind) :=
    Json.Record.decodes_of_map rfl
      (Collection.decodeParsed_string (Collection.Kind.parse_name m.kind) _)
  have column : record.Decodes (room + 2) ("column", .string m.column) ("column", .column m.column) :=
    Json.Record.decodes_of_map rfl (Json.decodeText_string _ m.column)
  have value : record.Decodes (room + 2) ("value", m.value.toJson)
      ("value", .value m.value.afterJson) :=
    Json.Record.decodes_of_map rfl (Collection.decode_toJson h room)
  unfold toJson decodedFields
  cases m.change with
  | none => exact Json.Record.decode_ofFields (.cons kind (.cons column (.cons value .nil))) (by simp)
  | some change =>
      have operation : record.Decodes (room + 2) ("operation", .string change.symbol)
          ("operation", .operation (some change)) :=
        Json.Record.decodes_of_map rfl (Collection.Change.decode?_symbol change _)
      exact Json.Record.decode_ofFields
        (.cons kind (.cons column (.cons value (.cons operation .nil)))) (by simp)

theorem decode_toJson {m : Mutation} (h : ∀ x ∈ m.value.scalars, x.IsFinite) (room : Nat) :
    decode (room + 3) m.toJson = .ok m.afterJson := by
  rw [decode, decode_record h]
  obtain ⟨kind, column, value, change⟩ := m
  cases change <;> rfl

theorem fits_toJson {m : Mutation} (h : ∀ x ∈ m.value.scalars, x.IsFinite) (room : Nat) :
    m.toJson.fits (room + 3) = true := by
  have value := Collection.fits_toJson h room
  refine Json.fits_ofFields ?_
  cases m.change <;> simp [Json.fits, value]

/-- What is decoded as a field: a collection only if it can come from a text. -/
def Field.IsDecoded : Field → Prop
  | .value c => c.IsDecoded
  | _ => True

theorem record_ensures :
    Json.Ensures record.decode fun found => ∀ field ∈ found, field.2.IsDecoded := by
  refine Json.Record.decode_ensures ?_
  simp only [record, List.forall_mem_cons]
  refine ⟨?_, ?_, ?_, ?_, List.forall_mem_nil _⟩
  · exact Json.map_ensures (Json.ensures_of_forall fun _ => trivial)
  · exact Json.map_ensures (Json.ensures_of_forall fun _ => trivial)
  · exact Json.map_ensures Collection.decode_ensures
  · exact Json.map_ensures (Json.ensures_of_forall fun _ => trivial)

theorem decode_ensures : Json.Ensures decode fun m => m.value.IsDecoded := by
  intro room j m h
  obtain ⟨found, fields, h⟩ := Fallible.bind_eq_ok_iff.mp h
  obtain ⟨kind, _, h⟩ := Fallible.bind_eq_ok_iff.mp h
  obtain ⟨column, _, h⟩ := Fallible.bind_eq_ok_iff.mp h
  obtain ⟨value, required, h⟩ := Fallible.bind_eq_ok_iff.mp h
  rw [← Except.ok.inj h]
  refine Json.Record.require_ensures required (record_ensures fields) fun field is decoded => ?_
  cases field <;> cases is
  exact decoded

end Mutation

end CqlStatements
