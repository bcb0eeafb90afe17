import CqlStatements.Json.Decode
import CqlStatements.Proofs.Fallible
import CqlStatements.Proofs.Json.Documents

/-!
# What decoders take and what they give

Two sides of a decoder are carried from its parts to the whole. One is what it gives for a value that was
encoded, for arrays item by item. The other is what holds of everything that it gives, whatever text it is
given.
-/
namespace CqlStatements.Json

section Given

/-- Whatever a decoder gives, for whatever value, has a property. -/
def Ensures {α : Type} (decode : Decoder α) (P : α → Prop) : Prop :=
  ∀ ⦃room : Nat⦄ ⦃j : Json⦄ ⦃x : α⦄, decode room j = .ok x → P x

theorem ensures_of_forall {α : Type} {decode : Decoder α} {P : α → Prop} (h : ∀ x, P x) :
    Ensures decode P :=
  fun _ _ x _ => h x

theorem unexpected_ne_ok {α : Type} (expected : String) (j : Json) (x : α) :
    unexpected expected j ≠ .ok x := by
  unfold unexpected
  cases j.shape? <;> exact nofun

theorem decodeList_ensures {α : Type} {decode : Decoder α} {P : α → Prop} (each : Ensures decode P) :
    Ensures (decodeList decode) fun xs => ∀ x ∈ xs, P x := by
  intro room j xs h
  cases j with
  | array items =>
      cases room with
      | zero => cases h
      | succ room =>
          have steps : items.mapM (decode room) = .ok xs := h
          exact Fallible.forall_of_forall₂ (Fallible.mapM_eq_ok_iff.mp steps) (each ·)
  | null | bool | number | string | unpaired | object | broken =>
      rw [decodeList] at h
      · exact absurd h (unexpected_ne_ok _ _ _)
      · exact nofun
      · exact nofun

/-- A value of the right shape is taken only if all of it can be. -/
theorem decodeWhole_eq_ok_iff {α : Type} {type : String} {read? : Json → Option α} {room : Nat}
    {j : Json} {x : α} :
    decodeWhole type read? room j = .ok x ↔ j.fits room = true ∧ read? j = some x := by
  rw [decodeWhole]
  split
  · rename_i fit
    rw [and_iff_right fit]
    cases read? j with
    | none => simp only [reduceCtorEq]
    | some y => simp only [Except.ok.injEq, Option.some.injEq]
  · rename_i unfit
    simp only [unfit, reduceCtorEq, false_and]

theorem decodeWhole_ensures {α : Type} {type : String} {read? : Json → Option α} {P : α → Prop}
    (each : ∀ j x, read? j = some x → P x) : Ensures (decodeWhole type read?) P := by
  intro room j x h
  exact each j x (decodeWhole_eq_ok_iff.mp h).2

theorem map_ensures {α β : Type} {decode : Decoder α} {P : β → Prop} {f : α → β}
    (each : Ensures decode fun x => P (f x)) : Ensures (fun room j => f <$> decode room j) P := by
  intro room j y h
  obtain ⟨x, step, rfl⟩ := Fallible.map_eq_ok_iff.mp h
  exact each step

namespace Record

variable {φ : Type} {P : φ → Prop}

theorem decodeMembers_ensures {r : Record φ} (fields : ∀ field ∈ r.fields, Ensures field.2 P)
    {room : Nat} {members : List (Key × Json)} {found all : List (String × φ)}
    (before : ∀ field ∈ found, P field.2) (h : r.decodeMembers room found members = .ok all) :
    ∀ field ∈ all, P field.2 := by
  induction members generalizing found with
  | nil => exact Except.ok.inj h ▸ before
  | cons member members ih =>
      obtain ⟨key, value⟩ := member
      cases key with
      | unpaired | absent => cases h
      | text name =>
          rw [decodeMembers] at h
          cases known : r.fields.lookup name with
          | none =>
              simp only [known] at h
              split at h
              · exact ih before h
              · cases h
          | some decode =>
              simp only [known] at h
              split at h
              · cases h
              · obtain ⟨x, step, h⟩ := Fallible.bind_eq_ok_iff.mp h
                obtain ⟨front, back, place, _⟩ := List.lookup_eq_some_iff.mp known
                have ensured : Ensures decode P := fields (name, decode) (by simp [place])
                refine ih (fun field mem => ?_) h
                rcases List.mem_append.mp mem with mem | mem
                · exact before field mem
                · rw [List.mem_singleton.mp mem]
                  exact ensured step

theorem decodeItems_ensures {fields : List (String × Decoder φ)}
    (each : ∀ field ∈ fields, Ensures field.2 P) {room : Nat} {items : List Json}
    {all : List (String × φ)} (h : decodeItems room fields items = .ok all) :
    ∀ field ∈ all, P field.2 := by
  induction fields generalizing items all with
  | nil =>
      cases items with
      | nil => exact Except.ok.inj h ▸ nofun
      | cons => cases h
  | cons field fields ih =>
      cases items with
      | nil => exact Except.ok.inj h ▸ nofun
      | cons item items =>
          obtain ⟨x, step, h⟩ := Fallible.bind_eq_ok_iff.mp h
          obtain ⟨others, rest, h⟩ := Fallible.bind_eq_ok_iff.mp h
          rw [← Except.ok.inj h]
          exact List.forall_mem_cons.mpr ⟨each field List.mem_cons_self step,
            ih (fun other mem => each other (List.mem_cons_of_mem field mem)) rest⟩

/-- Fields are decoded from the items of an array or from the members of an object, and from nothing else. -/
theorem decode_eq_ok_cases {r : Record φ} {room : Nat} {j : Json} {all : List (String × φ)}
    (h : r.decode room j = .ok all) :
    ∃ inner, room = inner + 1 ∧
      ((∃ items, j = .array items ∧ decodeItems inner r.fields items = .ok all ∧
          r.required ≤ all.length) ∨
        ∃ members, j = .object members ∧ r.decodeMembers inner [] members = .ok all) := by
  cases j with
  | array items =>
      cases room with
      | zero => cases h
      | succ inner =>
          obtain ⟨found, decoded, h⟩ := Fallible.bind_eq_ok_iff.mp h
          split at h
          · cases h
          · rename_i enough
            obtain rfl := Except.ok.inj h
            exact ⟨inner, rfl, .inl ⟨items, rfl, decoded, Nat.le_of_not_lt enough⟩⟩
  | object members =>
      cases room with
      | zero => cases h
      | succ inner => exact ⟨inner, rfl, .inr ⟨members, rfl, h⟩⟩
  | null | bool | number | string | unpaired | broken =>
      rw [decode] at h
      · exact absurd h (unexpected_ne_ok _ _ _)
      all_goals exact nofun

/-- Every field that a record gives comes from the decoder of one of its fields. -/
theorem decode_ensures {r : Record φ} (fields : ∀ field ∈ r.fields, Ensures field.2 P) :
    Ensures r.decode fun all => ∀ field ∈ all, P field.2 := by
  intro room j all h
  obtain ⟨_, _, ⟨items, _, decoded, _⟩ | ⟨members, _, decoded⟩⟩ := decode_eq_ok_cases h
  · exact decodeItems_ensures fields decoded
  · exact decodeMembers_ensures fields (List.forall_mem_nil _) decoded

/-- A field is looked for among those that were found. -/
theorem exists_of_find? {α : Type} {pick : φ → Option α} {found : List (String × φ)} {x : α}
    (h : find? pick found = some x) : ∃ field ∈ found, pick field.2 = some x :=
  List.exists_of_findSome?_eq_some h

/-- What holds of the fields that were found holds of the value of a required one. -/
theorem require_ensures {α : Type} {Q : α → Prop} {name : String} {pick : φ → Option α}
    {found : List (String × φ)} {x : α} (h : require name pick found = .ok x)
    (ensured : ∀ field ∈ found, P field.2) (picked : ∀ field, pick field = some x → P field → Q x) :
    Q x := by
  unfold require at h
  split at h
  · rename_i y there
    obtain ⟨field, mem, is⟩ := exists_of_find? there
    exact picked field.2 (Except.ok.inj h ▸ is) (ensured field mem)
  · cases h

end Record

end Given

section Encoded

theorem decodeText_string (room : Nat) (s : String) : decodeText room (.string s) = .ok s := rfl

/-- An array of encoded values is decoded value by value, one level further in. -/
theorem decodeList_map {α β : Type} {decode : Decoder α} {room : Nat} {encode : β → Json}
    {result : β → α} {xs : List β} (each : ∀ x ∈ xs, decode room (encode x) = .ok (result x)) :
    decodeList decode (room + 1) (.array (xs.map encode)) = .ok (xs.map result) :=
  Fallible.mapM_map_eq_ok each

theorem decodeList_map_self {α : Type} {decode : Decoder α} {room : Nat} {encode : α → Json}
    {xs : List α} (each : ∀ x ∈ xs, decode room (encode x) = .ok x) :
    decodeList decode (room + 1) (.array (xs.map encode)) = .ok xs := by
  have decoded : decodeList decode (room + 1) (.array (xs.map encode)) = .ok (xs.map id) :=
    decodeList_map each
  rwa [List.map_id] at decoded

end Encoded

section Texts

variable {α : Type} {decode : Decoder α} {text : String} {x : α}

/-- Of a text that is JSON to its end the tree is decoded. -/
theorem decodeWith_of_document {j : Json} (document : Document j text) :
    decodeWith decode text = decode maxDepth j := by
  rw [decodeWith, document.ofText]
  dsimp only
  cases decode maxDepth j <;> rfl

theorem decodeWith_eq_ok_iff :
    decodeWith decode text = .ok x ↔ ∃ j, Document j text ∧ decode maxDepth j = .ok x := by
  constructor
  · intro decoded
    rw [decodeWith] at decoded
    rcases read : ofText text with ⟨j, ended⟩
    rw [read] at decoded
    dsimp only at decoded
    obtain ⟨y, step, answer⟩ := Fallible.bind_eq_ok_iff.mp decoded
    split at answer
    · rename_i whole
      subst whole
      exact ⟨j, ofText_eq_iff.mp read, Except.ok.inj answer ▸ step⟩
    · cases answer
  · rintro ⟨j, document, decoded⟩
    rw [decodeWith_of_document document, decoded]

end Texts

end CqlStatements.Json
