import CqlStatements.Descriptor.Json
import CqlStatements.Proofs.RoundTrip.Values
import CqlStatements.Statement.Compile

/-!
# Descriptors through JSON

A descriptor with finite scalars is decoded from its own text field by field, and nothing is lost of it
but the kind of its empty rows of entries. This is not seen in the text that is written again nor in the
statement that is compiled.
-/
namespace CqlStatements

namespace ColumnValue

theorem decode_record {c : ColumnValue} (h : c.value.IsFinite) (room : Nat) :
    record.decode (room + 1) c.toJson =
      .ok [("column", .column c.column), ("value", .value c.value)] := by
  have column : record.Decodes room ("column", .string c.column) ("column", .column c.column) :=
    Json.Record.decodes_of_map rfl (Json.decodeText_string room c.column)
  have value : record.Decodes room ("value", c.value.toJson) ("value", .value c.value) :=
    Json.Record.decodes_of_map rfl (Scalar.decode_toJson h room)
  exact Json.Record.decode_ofFields (.cons column (.cons value .nil)) (by simp)

theorem decode_toJson {c : ColumnValue} (h : c.value.IsFinite) (room : Nat) :
    decode (room + 1) c.toJson = .ok c := by
  rw [decode, decode_record h]
  rfl

theorem fits_toJson {c : ColumnValue} (h : c.value.IsFinite) (room : Nat) :
    c.toJson.fits (room + 1) = true := by
  have value := Scalar.fits_toJson h room
  exact Json.fits_ofFields (by simp [Json.fits, value])

/-- What is decoded as a field: a scalar only if it is finite. -/
def Field.IsDecoded : Field → Prop
  | .value x => x.IsFinite
  | _ => True

theorem record_ensures :
    Json.Ensures record.decode fun found => ∀ field ∈ found, field.2.IsDecoded := by
  refine Json.Record.decode_ensures ?_
  simp only [record, List.forall_mem_cons]
  refine ⟨?_, ?_, List.forall_mem_nil _⟩
  · exact Json.map_ensures (Json.ensures_of_forall fun _ => trivial)
  · exact Json.map_ensures Scalar.decode_ensures

theorem decode_ensures : Json.Ensures decode fun c => c.value.IsFinite := by
  intro room j c h
  obtain ⟨found, fields, h⟩ := Fallible.bind_eq_ok_iff.mp h
  obtain ⟨column, _, h⟩ := Fallible.bind_eq_ok_iff.mp h
  obtain ⟨value, required, h⟩ := Fallible.bind_eq_ok_iff.mp h
  rw [← Except.ok.inj h]
  refine Json.Record.require_ensures required (record_ensures fields) fun field is decoded => ?_
  cases field <;> cases is
  exact decoded

end ColumnValue

namespace Descriptor

/-- All collections of a descriptor. -/
def mutations (d : Descriptor) : List Mutation := d.insertCollections ++ d.updateCollections

/-- All scalars of a descriptor, those in collections among them. -/
def scalars (d : Descriptor) : List Scalar :=
  d.whereBindings ++ d.columns.map ColumnValue.value ++ d.batchRows.flatten.map ColumnValue.value ++
    d.mutations.flatMap fun m => m.value.scalars

/-- A descriptor as it comes back from JSON. -/
def afterJson (d : Descriptor) : Descriptor :=
  { d with
    insertCollections := d.insertCollections.map Mutation.afterJson
    updateCollections := d.updateCollections.map Mutation.afterJson }

theorem forall_scalars {d : Descriptor} {P : Scalar → Prop} :
    (∀ x ∈ d.scalars, P x) ↔
      (∀ x ∈ d.whereBindings, P x) ∧ (∀ c ∈ d.columns, P c.value) ∧
      (∀ row ∈ d.batchRows, ∀ c ∈ row, P c.value) ∧
      ∀ m ∈ d.mutations, ∀ x ∈ m.value.scalars, P x := by
  simp only [scalars, List.forall_mem_append, List.forall_mem_map, List.mem_flatten,
    List.mem_flatMap, and_assoc]
  grind

theorem afterJson_of_forall_ne {d : Descriptor} (h : ∀ m ∈ d.mutations, m.value ≠ .entries []) :
    d.afterJson = d := by
  have same : ∀ ms ⊆ d.mutations, ms.map Mutation.afterJson = ms := by
    intro ms among
    have each : ∀ m ∈ ms, m.afterJson = id m := fun m mem =>
      Mutation.afterJson_of_ne (h m (among mem))
    rw [List.map_congr_left each, List.map_id]
  rw [afterJson, same _ (List.subset_append_left _ _), same _ (List.subset_append_right _ _)]

section Encoding

theorem decodeNames_toJson (names : List String) (room : Nat) :
    decodeNames (room + 1) (namesToJson names) = .ok names :=
  Json.decodeList_map_self fun name _ => Json.decodeText_string room name

theorem decodeRow_toJson {row : Row} (h : ∀ c ∈ row, c.value.IsFinite) (room : Nat) :
    decodeRow (room + 2) (rowToJson row) = .ok row :=
  Json.decodeList_map_self fun c mem => ColumnValue.decode_toJson (h c mem) room

theorem decodeMutations_toJson {ms : List Mutation} (h : ∀ m ∈ ms, ∀ x ∈ m.value.scalars, x.IsFinite)
    (room : Nat) :
    Json.decodeList Mutation.decode (room + 4) (.array (ms.map Mutation.toJson)) =
      .ok (ms.map Mutation.afterJson) :=
  Json.decodeList_map fun m mem => Mutation.decode_toJson (h m mem) room

/-- The fields that the members of a descriptor are decoded to. -/
def decodedFields (d : Descriptor) : List (String × Field) :=
  [("operation", .operation d.operation),
    ("table", .table d.table),
    ("projection", .projection d.projection),
    ("where_fragment", .whereFragment d.whereFragment),
    ("where_bindings", .whereBindings d.whereBindings),
    ("trailing", .trailing d.trailing),
    ("columns", .columns d.columns),
    ("batch_rows", .batchRows d.batchRows),
    ("insert_collections", .insertCollections (d.insertCollections.map Mutation.afterJson)),
    ("update_collections", .updateCollections (d.updateCollections.map Mutation.afterJson)),
    ("delete_columns", .deleteColumns d.deleteColumns),
    ("index_columns", .indexColumns d.indexColumns)]

theorem decodeOperation_name (operation : Operation) (room : Nat) :
    Operation.decode room (.string operation.name) = .ok operation := by
  cases room <;> simp only [Operation.decode, Operation.ofVariant, Operation.ofName?_name]

theorem decode_record {d : Descriptor} (h : ∀ x ∈ d.scalars, x.IsFinite) (room : Nat) :
    record.decode (room + 5) d.toJson = .ok d.decodedFields := by
  obtain ⟨bindings, columns, batchRows, mutations⟩ := forall_scalars.mp h
  obtain ⟨inserts, updates⟩ := List.forall_mem_append.mp mutations
  have decodes : List.Forall₂ (record.Decodes (room + 4)) _ d.decodedFields :=
    .cons (Json.Record.decodes_of_map rfl (decodeOperation_name d.operation _)) <|
    .cons (Json.Record.decodes_of_map rfl (Json.decodeText_string _ d.table)) <|
    .cons (Json.Record.decodes_of_map rfl (decodeNames_toJson d.projection _)) <|
    .cons (Json.Record.decodes_of_map rfl (Json.decodeText_string _ d.whereFragment)) <|
    .cons (Json.Record.decodes_of_map rfl
      (Json.decodeList_map_self fun x mem => Scalar.decode_toJson (bindings x mem) _)) <|
    .cons (Json.Record.decodes_of_map rfl (Json.decodeText_string _ d.trailing)) <|
    .cons (Json.Record.decodes_of_map rfl (decodeRow_toJson columns _)) <|
    .cons (Json.Record.decodes_of_map rfl
      (Json.decodeList_map_self fun row mem => decodeRow_toJson (batchRows row mem) _)) <|
    .cons (Json.Record.decodes_of_map rfl (decodeMutations_toJson inserts _)) <|
    .cons (Json.Record.decodes_of_map rfl (decodeMutations_toJson updates _)) <|
    .cons (Json.Record.decodes_of_map rfl (decodeNames_toJson d.deleteColumns _)) <|
    .cons (Json.Record.decodes_of_map rfl (decodeNames_toJson d.indexColumns _)) .nil
  exact Json.Record.decode_ofFields decodes (by simp [decodedFields])

theorem decode_toJson {d : Descriptor} (h : ∀ x ∈ d.scalars, x.IsFinite) (room : Nat) :
    decode (room + 5) d.toJson = .ok d.afterJson := by
  rw [decode, decode_record h]
  rfl

theorem fits_toJson {d : Descriptor} (h : ∀ x ∈ d.scalars, x.IsFinite) (room : Nat) :
    d.toJson.fits (room + 5) = true := by
  obtain ⟨bindings, columns, batchRows, mutations⟩ := forall_scalars.mp h
  obtain ⟨inserts, updates⟩ := List.forall_mem_append.mp mutations
  have text : ∀ s, (Json.string s).fits (room + 4) = true := fun s => by rw [Json.fits]
  have names : ∀ names, (namesToJson names).fits (room + 4) = true := fun names =>
    Json.fits_map fun name _ => by rw [Json.fits]
  have row : ∀ {row : Row} (room : Nat), (∀ c ∈ row, c.value.IsFinite) →
      (rowToJson row).fits (room + 2) = true := fun room finite =>
    Json.fits_map fun c mem => ColumnValue.fits_toJson (finite c mem) room
  have collections : ∀ {ms : List Mutation}, (∀ m ∈ ms, ∀ x ∈ m.value.scalars, x.IsFinite) →
      (Json.array (ms.map Mutation.toJson)).fits (room + 4) = true := fun finite =>
    Json.fits_map fun m mem => Mutation.fits_toJson (finite m mem) room
  refine Json.fits_ofFields ?_
  simp only [List.forall_mem_cons, text, names, true_and, row _ columns, collections inserts,
    collections updates]
  refine ⟨?_, ?_, List.forall_mem_nil _⟩
  · exact Json.fits_map fun x mem => Scalar.fits_toJson (bindings x mem) _
  · exact Json.fits_map fun r mem => row _ (batchRows r mem)

theorem ofJsonText_toJsonText {d : Descriptor} (h : ∀ x ∈ d.scalars, x.IsFinite) :
    ofJsonText d.toJsonText = .ok d.afterJson := by
  -- A descriptor opens five levels at most, of the 127 that there are.
  exact Json.decodeWith_eq_ok_iff.mpr
    ⟨d.toJson, Json.document_compact (fits_toJson h 122), decode_toJson h 122⟩

end Encoding

section Alike

theorem toJson_afterJson (d : Descriptor) : d.afterJson.toJson = d.toJson := by
  simp only [toJson, afterJson, Mutation.map_map_afterJson Mutation.toJson_afterJson]

/-- The text of a collection's assignment does not tell the two empty rows apart. -/
theorem collectionAssignment_afterJson (m : Mutation) :
    collectionAssignment m.afterJson = collectionAssignment m := by
  unfold collectionAssignment
  rw [Mutation.literal_afterJson]
  rfl

theorem compileUpdate_afterJson (d : Descriptor) : d.afterJson.compileUpdate = d.compileUpdate := by
  have assigned := Mutation.map_map_afterJson collectionAssignment_afterJson d.updateCollections
  simp only [compileUpdate, assignments, afterJson, assigned, List.isEmpty_map]
  rfl

theorem compileInsert_afterJson (d : Descriptor) : d.afterJson.compileInsert = d.compileInsert := by
  have columns : (d.insertCollections.map Mutation.afterJson).map Mutation.column =
      d.insertCollections.map Mutation.column := Mutation.map_map_afterJson (fun _ => rfl) _
  have literals := Mutation.map_map_afterJson Mutation.literal_afterJson d.insertCollections
  have changed : (d.insertCollections.map Mutation.afterJson).find? (fun m => m.change.isSome) =
      (d.insertCollections.find? fun m => m.change.isSome).map Mutation.afterJson := by
    rw [List.find?_map]
    rfl
  simp only [compileInsert, afterJson, columns, literals, changed, List.isEmpty_map]
  cases d.insertCollections.find? fun m => m.change.isSome <;> rfl

theorem compile_afterJson (d : Descriptor) : d.afterJson.compile = d.compile := by
  have operation : d.afterJson.operation = d.operation := rfl
  unfold compile
  rw [operation]
  cases d.operation with
  | select | delete | createIndex => rfl
  | insert => exact compileInsert_afterJson d
  | update => exact compileUpdate_afterJson d

end Alike

section Decoded

/-- What is decoded as a field: scalars and collections only if they can come from a text. -/
def Field.IsDecoded : Field → Prop
  | .whereBindings values => ∀ x ∈ values, x.IsFinite
  | .columns row => ∀ c ∈ row, c.value.IsFinite
  | .batchRows rows => ∀ row ∈ rows, ∀ c ∈ row, c.value.IsFinite
  | .insertCollections ms | .updateCollections ms => ∀ m ∈ ms, m.value.IsDecoded
  | _ => True

theorem record_ensures :
    Json.Ensures record.decode fun found => ∀ field ∈ found, field.2.IsDecoded := by
  have text : ∀ {α : Type} {decode : Json.Decoder α} {f : α → Field}, (∀ x, (f x).IsDecoded) →
      Json.Ensures (fun room j => f <$> decode room j) Field.IsDecoded :=
    fun always => Json.map_ensures (Json.ensures_of_forall always)
  have row : Json.Ensures decodeRow fun row => ∀ c ∈ row, c.value.IsFinite :=
    Json.decodeList_ensures ColumnValue.decode_ensures
  have mutations : Json.Ensures (Json.decodeList Mutation.decode)
      fun ms => ∀ m ∈ ms, m.value.IsDecoded :=
    Json.decodeList_ensures Mutation.decode_ensures
  refine Json.Record.decode_ensures ?_
  simp only [record, List.forall_mem_cons]
  exact ⟨text fun _ => trivial, text fun _ => trivial, text fun _ => trivial, text fun _ => trivial,
    Json.map_ensures (Json.decodeList_ensures Scalar.decode_ensures), text fun _ => trivial,
    Json.map_ensures row, Json.map_ensures (Json.decodeList_ensures row), Json.map_ensures mutations,
    Json.map_ensures mutations, text fun _ => trivial, text fun _ => trivial,
    List.forall_mem_nil _⟩

/-- What holds of all items of a field that is there holds of them also where it may be left off. -/
theorem forall_orDefault {α : Type} {P : α → Prop} {pick : Field → Option (List α)}
    {found : List (String × Field)} (decoded : ∀ field ∈ found, field.2.IsDecoded)
    (picked : ∀ field xs, pick field = some xs → field.IsDecoded → ∀ x ∈ xs, P x) :
    ∀ x ∈ orDefault [] pick found, P x := by
  unfold orDefault
  cases there : Json.Record.find? pick found with
  | none => exact List.forall_mem_nil _
  | some xs =>
      obtain ⟨field, mem, is⟩ := Json.Record.exists_of_find? there
      exact picked field.2 xs is (decoded field mem)

theorem decode_ensures : Json.Ensures decode fun d =>
    (∀ x ∈ d.scalars, x.IsFinite) ∧ ∀ m ∈ d.mutations, m.value ≠ .entries [] := by
  intro room j d h
  obtain ⟨found, fields, h⟩ := Fallible.bind_eq_ok_iff.mp h
  obtain ⟨operation, _, h⟩ := Fallible.bind_eq_ok_iff.mp h
  obtain ⟨table, _, h⟩ := Fallible.bind_eq_ok_iff.mp h
  have decoded := record_ensures fields
  have mutations : ∀ m ∈ d.mutations, m.value.IsDecoded := by
    rw [← Except.ok.inj h]
    refine List.forall_mem_append.mpr ⟨?_, ?_⟩ <;>
      · refine forall_orDefault decoded fun field xs is decoded => ?_
        cases field <;> cases is
        exact decoded
  refine ⟨forall_scalars.mpr ⟨?_, ?_, ?_, fun m mem => (mutations m mem).2⟩,
    fun m mem => (mutations m mem).1⟩
  all_goals
    rw [← Except.ok.inj h]
    refine forall_orDefault decoded fun field xs is decoded => ?_
    cases field <;> cases is
    exact decoded

theorem ofJsonText_ensures {text : String} {d : Descriptor} (h : ofJsonText text = .ok d) :
    (∀ x ∈ d.scalars, x.IsFinite) ∧ ∀ m ∈ d.mutations, m.value ≠ .entries [] := by
  obtain ⟨j, _, decoded⟩ := Json.decodeWith_eq_ok_iff.mp h
  exact decode_ensures decoded

end Decoded

/-- A descriptor goes through JSON unchanged, except that an empty row of entries becomes an empty row
of elements. Nothing that is written or compiled tells these two apart, and no text gives the former. -/
theorem json_roundTrip :
    (∀ d : Descriptor, (∀ x ∈ d.scalars, x.IsFinite) →
      ofJsonText d.toJsonText = .ok d.afterJson ∧ d.afterJson.toJsonText = d.toJsonText ∧
        d.afterJson.compile = d.compile) ∧
    ∀ (text : String) (d : Descriptor), ofJsonText text = .ok d →
      (∀ x ∈ d.scalars, x.IsFinite) ∧ (∀ m ∈ d.mutations, m.value ≠ .entries []) ∧
        ofJsonText d.toJsonText = .ok d := by
  refine ⟨fun d finite => ⟨ofJsonText_toJsonText finite, ?_, compile_afterJson d⟩, ?_⟩
  · rw [toJsonText, toJson_afterJson, toJsonText]
  · intro text d decoded
    obtain ⟨finite, noEmptyEntries⟩ := ofJsonText_ensures decoded
    refine ⟨finite, noEmptyEntries, ?_⟩
    rw [ofJsonText_toJsonText finite, afterJson_of_forall_ne noEmptyEntries]

/-- A map that is added no entries to, beside a float that no short decimal equals; and a zero whose
sign is all that makes it a float. -/
theorem json_roundTrip_emptyEntries :
    ofJsonText (toJsonText
        { operation := .update, table := "t", whereBindings := [.float ⟨0x3FB999999999999A⟩]
          updateCollections := [⟨.map, "m", .entries [], some .append⟩] }) =
      .ok
        { operation := .update, table := "t", whereBindings := [.float ⟨0x3FB999999999999A⟩]
          updateCollections := [⟨.map, "m", .elements [], some .append⟩] } ∧
    ofJsonText (toJsonText
        { operation := .select, table := "t", whereBindings := [.float ⟨0x8000000000000000⟩] }) =
      .ok { operation := .select, table := "t", whereBindings := [.float ⟨0x8000000000000000⟩] } :=
  ⟨(json_roundTrip.1 _ (by decide)).1,
    (json_roundTrip.2 "\x7b\"table\":\"t\",\"where_bindings\":[-0],\"operation\":\"select\"\x7d" _
      (by decide +kernel)).2.2⟩

end Descriptor
end CqlStatements
