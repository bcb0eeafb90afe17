import CqlStatements.Descriptor.Json
import CqlStatements.Proofs.Json.Layouts
import CqlStatements.Proofs.Json.Members

/-!
# Descriptors in any arrangement

Nothing of the order in which a descriptor, its columns' values or its collections' mutations name their
fields is seen in what they are decoded to, and nothing of what else stands among them. A field is told by
its content alone, since each name stands for one kind of content. All fields of a descriptor may also be
given without their names, in an array.
-/
namespace CqlStatements

open Json.Record

namespace ColumnValue

/-- The name that a field stands under. -/
def Field.name : Field → String
  | .column _ => "column"
  | .value _ => "value"

theorem record_labelled :
    ∀ field ∈ record.fields, Json.Ensures field.2 fun x => x.name = field.1 := by
  simp only [record, List.forall_mem_cons]
  refine ⟨?_, ?_, List.forall_mem_nil _⟩ <;>
    exact Json.map_ensures (Json.ensures_of_forall fun _ => rfl)

theorem ofFields_perm {found others : List (String × Field)} (separate : Separate Field.name found)
    (perm : others.Perm found) : ofFields others = ofFields found := by
  unfold ofFields Json.Record.require
  rw [separate.find?_perm perm, separate.find?_perm perm]
  all_goals
    intro field x picked
    cases field <;> cases picked
    rfl

/-- Values that are the same but for the arrangement of a column's value. -/
abbrev Alike : Json → Json → Prop := record.Alike fun _ => Eq

theorem respects : Respects decode Alike :=
  respects_alike (fun _ decode _ => respects_eq decode) record_labelled ofFields_perm

end ColumnValue

namespace Mutation

/-- The name that a field stands under. -/
def Field.name : Field → String
  | .kind _ => "kind"
  | .column _ => "column"
  | .value _ => "value"
  | .operation _ => "operation"

theorem record_labelled :
    ∀ field ∈ record.fields, Json.Ensures field.2 fun x => x.name = field.1 := by
  simp only [record, List.forall_mem_cons]
  refine ⟨?_, ?_, ?_, ?_, List.forall_mem_nil _⟩ <;>
    exact Json.map_ensures (Json.ensures_of_forall fun _ => rfl)

theorem ofFields_perm {found others : List (String × Field)} (separate : Separate Field.name found)
    (perm : others.Perm found) : ofFields others = ofFields found := by
  unfold ofFields Json.Record.require
  rw [separate.find?_perm perm, separate.find?_perm perm, separate.find?_perm perm,
    separate.find?_perm perm]
  all_goals
    intro field x picked
    cases field <;> cases picked
    rfl

/-- Values that are the same but for the arrangement of a mutation. -/
abbrev Alike : Json → Json → Prop := record.Alike fun _ => Eq

theorem respects : Respects decode Alike :=
  respects_alike (fun _ decode _ => respects_eq decode) record_labelled ofFields_perm

end Mutation

namespace Descriptor

/-- The name that a field stands under. -/
def Field.name : Field → String
  | .operation _ => "operation"
  | .table _ => "table"
  | .projection _ => "projection"
  | .whereFragment _ => "where_fragment"
  | .whereBindings _ => "where_bindings"
  | .trailing _ => "trailing"
  | .columns _ => "columns"
  | .batchRows _ => "batch_rows"
  | .insertCollections _ => "insert_collections"
  | .updateCollections _ => "update_collections"
  | .deleteColumns _ => "delete_columns"
  | .indexColumns _ => "index_columns"

theorem record_labelled :
    ∀ field ∈ record.fields, Json.Ensures field.2 fun x => x.name = field.1 := by
  simp only [record, List.forall_mem_cons]
  refine ⟨?_, ?_, ?_, ?_, ?_, ?_, ?_, ?_, ?_, ?_, ?_, ?_, List.forall_mem_nil _⟩ <;>
    exact Json.map_ensures (Json.ensures_of_forall fun _ => rfl)

theorem ofFields_perm {found others : List (String × Field)} (separate : Separate Field.name found)
    (perm : others.Perm found) : ofFields others = ofFields found := by
  unfold ofFields orDefault Json.Record.require
  iterate 12 rw [separate.find?_perm perm]
  all_goals
    intro field x picked
    cases field <;> cases picked
    rfl

/-- What a member of a descriptor may be without its value being another one: columns' values and mutations
may be arranged in another way. -/
inductive FieldAlike : String → Json → Json → Prop
  | same (name : String) (j : Json) : FieldAlike name j j
  | columns {j j' : Json} : ItemsAlike ColumnValue.Alike j j' → FieldAlike "columns" j j'
  | batchRows {j j' : Json} : ItemsAlike (ItemsAlike ColumnValue.Alike) j j' →
      FieldAlike "batch_rows" j j'
  | insertCollections {j j' : Json} : ItemsAlike Mutation.Alike j j' →
      FieldAlike "insert_collections" j j'
  | updateCollections {j j' : Json} : ItemsAlike Mutation.Alike j j' →
      FieldAlike "update_collections" j j'

theorem respects_field {name : String} {decode : Json.Decoder Field}
    (known : record.fields.lookup name = some decode) : Respects decode (FieldAlike name) := by
  intro room j j' x whole whole' same
  cases same with
  | same => rfl
  | columns same =>
      obtain rfl := Option.some.inj known
      exact respects_map (respects_list ColumnValue.respects) _ whole whole' same
  | batchRows same =>
      obtain rfl := Option.some.inj known
      exact respects_map (respects_list (respects_list ColumnValue.respects)) _ whole whole' same
  | insertCollections same =>
      obtain rfl := Option.some.inj known
      exact respects_map (respects_list Mutation.respects) _ whole whole' same
  | updateCollections same =>
      obtain rfl := Option.some.inj known
      exact respects_map (respects_list Mutation.respects) _ whole whole' same

theorem respects : Respects decode (record.Alike FieldAlike) :=
  respects_alike (fun _ _ => respects_field) record_labelled ofFields_perm

/-- A descriptor is decoded from its text alike in any arrangement of its members, whatever members of
other names are among them; and from an array of its twelve fields as from the object of them. -/
theorem ofJsonText_arranged :
    (∀ text d, ofJsonText text = .ok d → ∃ j, Json.Document j text) ∧
    (∀ (members others : List (Json.Key × Json)) (text text' : String),
      Json.Document (.object members) text → Json.Document (.object others) text' →
      record.Rearranged FieldAlike members others →
      ∀ d, ofJsonText text = .ok d ↔ ofJsonText text' = .ok d) ∧
    ∀ (values : List Json) (text text' : String), values.length = 12 →
      Json.Document (.array values) text →
      Json.Document (.ofFields ((record.fields.map Prod.fst).zip values)) text' →
      ofJsonText text = ofJsonText text' := by
  refine ⟨fun text d decoded => ?_, fun members others text text' document document' arranged d => ?_,
    fun values text text' all document document' => ?_⟩
  · obtain ⟨j, document, _⟩ := Json.decodeWith_eq_ok_iff.mp decoded
    exact ⟨j, document⟩
  · rw [ofJsonText, ofJsonText, Json.decodeWith_of_document document,
      Json.decodeWith_of_document document']
    exact respects document.isWhole document'.isWhole (.object arranged)
  · have same : record.decode Json.maxDepth (.array values) =
        record.decode Json.maxDepth (.ofFields ((record.fields.map Prod.fst).zip values)) :=
      decode_array_eq (by decide) (by decide) all Json.maxDepth
    rw [ofJsonText, ofJsonText, Json.decodeWith_of_document document,
      Json.decodeWith_of_document document', decode, decode, same]

example : record.fields.map Prod.fst =
    ["operation", "table", "projection", "where_fragment", "where_bindings", "trailing", "columns",
      "batch_rows", "insert_collections", "update_collections", "delete_columns", "index_columns"] :=
  rfl

/-- The members of an update. -/
def plainMembers : List (Json.Key × Json) :=
  [(.text "operation", .string "update"), (.text "table", .string "t"),
    (.text "columns", .array [.ofFields [("column", .string "a"), ("value", .ofInt 1)]])]

/-- The same members in another order, others among them on both levels. -/
def arrangedMembers : List (Json.Key × Json) :=
  [(.text "kind", .array [.null, .ofFields [("table", .null)]]),
    (.text "columns", .array
      [.ofFields [("value", .ofInt 1), ("operation", .bool true), ("column", .string "a")]]),
    (.text "table", .string "t"), (.text "operation", .string "update"), (.text "kind", .ofInt 0)]

/-- The twelve fields of the update. -/
def updateValues : List Json :=
  [.string "update", .string "t", .array [], .string "", .array [], .string "",
    .array [.array [.string "a", .ofInt 1]], .array [], .array [], .array [], .array [], .array []]

def updated : Descriptor := { operation := .update, table := "t", columns := [⟨"a", .int 1⟩] }

theorem rearranged_members : record.Rearranged FieldAlike plainMembers arrangedMembers := by
  have row : ItemsAlike ColumnValue.Alike
      (.array [.ofFields [("column", .string "a"), ("value", .ofInt 1)]])
      (.array [.ofFields [("value", .ofInt 1), ("operation", .bool true), ("column", .string "a")]]) := by
    refine .array (.cons (.object ⟨[(.text "operation", .bool true)],
      [(.text "column", .string "a"), (.text "value", .ofInt 1)], ?_, ?_, ?_⟩) .nil)
    · exact (List.perm_append_singleton _ [_, _]).symm
    · simp [Unknown, ColumnValue.record]
    · exact .cons ⟨_, rfl, rfl, rfl⟩ (.cons ⟨_, rfl, rfl, rfl⟩ .nil)
  refine ⟨[(.text "kind", .array [.null, .ofFields [("table", .null)]]), (.text "kind", .ofInt 0)],
    [(.text "operation", .string "update"), (.text "table", .string "t"), (.text "columns", .array
      [.ofFields [("value", .ofInt 1), ("operation", .bool true), ("column", .string "a")]])],
    ?_, ?_, ?_⟩
  · exact .cons _ (List.reverse_perm [_, _, _, _])
  · simp [Unknown, record]
  · exact .cons ⟨_, rfl, rfl, .same _ _⟩ <| .cons ⟨_, rfl, rfl, .same _ _⟩ <|
      .cons ⟨_, rfl, rfl, .columns row⟩ .nil

/-- An update in another arrangement is decoded to the update, and from an array as from an object. -/
theorem ofJsonText_arranged_update :
    Json.Document (.object plainMembers) (Json.object plainMembers).compact ∧
      Json.Document (.object arrangedMembers) (Json.object arrangedMembers).compact ∧
      record.Rearranged FieldAlike plainMembers arrangedMembers ∧
      ofJsonText (Json.object arrangedMembers).compact = .ok updated ∧
      ofJsonText (Json.array updateValues).compact =
        ofJsonText (Json.ofFields ((record.fields.map Prod.fst).zip updateValues)).compact := by
  have plain := Json.document_compact (by decide : (Json.object plainMembers).fits 3 = true)
  have arranged := Json.document_compact (by decide : (Json.object arrangedMembers).fits 3 = true)
  have values := Json.document_compact (by decide : (Json.array updateValues).fits 3 = true)
  have named := Json.document_compact
    (by decide : (Json.ofFields ((record.fields.map Prod.fst).zip updateValues)).fits 3 = true)
  have decoded : (ofJsonText (Json.object plainMembers).compact).toOption = some updated := by
    decide +kernel
  exact ⟨plain, arranged, rearranged_members,
    (ofJsonText_arranged.2.1 _ _ _ _ plain arranged rearranged_members updated).mp
      (Fallible.toOption_eq_some_iff.mp decoded),
    ofJsonText_arranged.2.2 _ _ _ rfl values named⟩

end Descriptor
end CqlStatements
