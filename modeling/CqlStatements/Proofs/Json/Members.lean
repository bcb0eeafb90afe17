import CqlStatements.Proofs.Json.Decoding
import Mathlib.Data.List.Nodup
import Mathlib.Data.List.Perm.Basic

/-!
# Members of objects

An object is decoded member by member, and each member is looked at on its own: a known one gives a field,
an unknown one gives nothing. Beyond that only repeated names matter. So the fields do not depend on the
order of the members, except for their own order, and this is not seen by whoever looks fields up by their
content if different names stand for different contents.
-/
namespace CqlStatements.Json.Record

variable {φ α : Type} {r : Record φ} {room : Nat}

section Wholes

theorem areWhole_iff {items : List Json} : areWhole items = true ↔ ∀ item ∈ items, item.isWhole = true := by
  induction items with
  | nil => simp [areWhole]
  | cons item items ih => simp [areWhole, ih]

theorem whole_of_membersWhole {members : List (Key × Json)} (whole : membersWhole members = true) :
    ∀ member ∈ members, member.2.isWhole = true := by
  induction members with
  | nil => exact List.forall_mem_nil _
  | cons member members ih =>
      simp only [membersWhole, Bool.and_eq_true] at whole
      exact List.forall_mem_cons.mpr ⟨whole.1.2, ih whole.2⟩

end Wholes

section Reading

/-- The fields that the members of an object give, each by itself. -/
inductive Reads (r : Record φ) (room : Nat) : List (Key × Json) → List (String × φ) → Prop
  | nil : Reads r room [] []
  | known {name : String} {value : Json} {decode : Decoder φ} {x : φ} {members : List (Key × Json)}
      {fields : List (String × φ)} : r.fields.lookup name = some decode → decode room value = .ok x →
      Reads r room members fields → Reads r room ((.text name, value) :: members) ((name, x) :: fields)
  | unknown {name : String} {value : Json} {members : List (Key × Json)}
      {fields : List (String × φ)} : r.fields.lookup name = none → value.isWhole = true →
      Reads r room members fields → Reads r room ((.text name, value) :: members) fields

theorem lookup_isSome_iff_mem {name : String} {found : List (String × φ)} :
    (found.lookup name).isSome = true ↔ name ∈ found.map Prod.fst := by
  simp only [List.lookup_isSome_iff, beq_iff_eq, List.mem_map, eq_comm (a := name)]

/-- A field is added under a name that was not there. -/
theorem nodup_concat_iff {found : List (String × φ)} {name : String} {x : φ} :
    ((found ++ [(name, x)]).map Prod.fst).Nodup ↔
      (found.lookup name).isSome = false ∧ (found.map Prod.fst).Nodup := by
  rw [← List.concat_eq_append, List.map_concat, List.nodup_concat, ← lookup_isSome_iff_mem,
    Bool.not_eq_true]

/-- Decoding succeeds exactly if every member can be read and no known name stands twice. -/
theorem decodeMembers_eq_ok_iff {members : List (Key × Json)} {found all : List (String × φ)}
    (distinct : (found.map Prod.fst).Nodup) :
    r.decodeMembers room found members = .ok all ↔ ∃ fields, r.Reads room members fields ∧
      all = found ++ fields ∧ ((found ++ fields).map Prod.fst).Nodup := by
  induction members generalizing found with
  | nil =>
      rw [decodeMembers, Except.ok.injEq]
      constructor
      · rintro rfl
        exact ⟨[], .nil, (List.append_nil found).symm, by rwa [List.append_nil]⟩
      · rintro ⟨_, ⟨⟩, rfl, _⟩
        rw [List.append_nil]
  | cons member members ih =>
      obtain ⟨key, value⟩ := member
      cases key with
      | unpaired | absent =>
          constructor
          · intro failed
            cases failed
          · rintro ⟨_, ⟨⟩, _⟩
      | text name =>
          rw [decodeMembers]
          cases known : r.fields.lookup name with
          | none =>
              simp only
              constructor
              · intro h
                split at h
                · rename_i whole
                  obtain ⟨fields, reads, rest⟩ := (ih distinct).mp h
                  exact ⟨fields, .unknown known whole reads, rest⟩
                · cases h
              · rintro ⟨fields, reads, rest⟩
                cases reads with
                | known again => rw [known] at again; cases again
                | unknown _ whole reads =>
                    rw [if_pos whole]
                    exact (ih distinct).mpr ⟨fields, reads, rest⟩
          | some decode =>
              simp only
              constructor
              · intro h
                split at h
                · cases h
                · rename_i fresh
                  obtain ⟨x, decoded, h⟩ := Fallible.bind_eq_ok_iff.mp h
                  have extended := (nodup_concat_iff (x := x)).mpr ⟨Bool.not_eq_true _ ▸ fresh, distinct⟩
                  obtain ⟨fields, reads, rfl, all⟩ := (ih extended).mp h
                  rw [← List.append_cons] at all ⊢
                  exact ⟨(name, x) :: fields, .known known decoded reads, rfl, all⟩
              · rintro ⟨fields, reads, rfl, all⟩
                cases reads with
                | unknown again => rw [known] at again; cases again
                | @known _ _ _ x _ fields again decoded reads =>
                    obtain rfl := Option.some.inj (known.symm.trans again)
                    rw [List.append_cons] at all
                    have extended : ((found ++ [(name, x)]).map Prod.fst).Nodup := by
                      rw [List.map_append] at all
                      exact all.of_append_left
                    rw [(nodup_concat_iff.mp extended).1, if_neg Bool.false_ne_true, decoded]
                    exact (ih extended).mpr ⟨fields, reads, List.append_cons _ _ _, all⟩

theorem decode_object_eq_ok_iff {members : List (Key × Json)} {all : List (String × φ)} :
    r.decode (room + 1) (.object members) = .ok all ↔
      r.Reads room members all ∧ (all.map Prod.fst).Nodup := by
  have run : r.decode (room + 1) (.object members) = r.decodeMembers room [] members := rfl
  rw [run, decodeMembers_eq_ok_iff (by simp)]
  simp only [List.nil_append]
  constructor
  · rintro ⟨fields, reads, rfl, names⟩
    exact ⟨reads, names⟩
  · rintro ⟨reads, names⟩
    exact ⟨all, reads, rfl, names⟩

/-- A member of an object and what a record's decoder for its key gives for it. -/
def Decodes (r : Record φ) (room : Nat) (member : String × Json) (field : String × φ) : Prop :=
  member.1 = field.1 ∧
    ∃ decode, r.fields.lookup member.1 = some decode ∧ decode room member.2 = .ok field.2

theorem decodes_of_map {decode : Decoder α} {f : α → φ} {name : String}
    (known : r.fields.lookup name = some fun room j => f <$> decode room j) {j : Json} {x : α}
    (step : decode room j = .ok x) : r.Decodes room (name, j) (name, f x) :=
  ⟨rfl, _, known, Fallible.map_eq_ok_iff.mpr ⟨x, step, rfl⟩⟩

theorem reads_of_decodes {members : List (String × Json)} {fields : List (String × φ)}
    (each : List.Forall₂ (r.Decodes room) members fields) :
    r.Reads room (members.map fun member => (.text member.1, member.2)) fields := by
  induction each with
  | nil => exact .nil
  | @cons member field _ _ first _ ih =>
      obtain ⟨name, value⟩ := member
      obtain ⟨rfl, _, known, decoded⟩ := first
      exact .known known decoded ih

/-- Members under different names, all of them known, are decoded in their order. -/
theorem decode_ofFields {members : List (String × Json)} {fields : List (String × φ)}
    (each : List.Forall₂ (r.Decodes room) members fields) (distinct : (fields.map Prod.fst).Nodup) :
    r.decode (room + 1) (.ofFields members) = .ok fields :=
  decode_object_eq_ok_iff.mpr ⟨reads_of_decodes each, distinct⟩

end Reading

section Order

variable {members others : List (Key × Json)} {fields : List (String × φ)}

/-- Members in another order give the same fields in another order. -/
theorem Reads.perm (reads : r.Reads room members fields) (perm : members.Perm others) :
    ∃ fields', r.Reads room others fields' ∧ fields'.Perm fields := by
  induction perm generalizing fields with
  | nil => exact ⟨fields, reads, .refl _⟩
  | cons member _ ih =>
      cases reads with
      | known known decoded reads =>
          obtain ⟨fields', reads', same⟩ := ih reads
          exact ⟨_, .known known decoded reads', same.cons _⟩
      | unknown unknown whole reads =>
          obtain ⟨fields', reads', same⟩ := ih reads
          exact ⟨fields', .unknown unknown whole reads', same⟩
  | swap first second members =>
      cases reads with
      | known known decoded reads =>
          cases reads with
          | known known' decoded' reads =>
              exact ⟨_, .known known' decoded' (.known known decoded reads), .swap _ _ _⟩
          | unknown unknown whole reads =>
              exact ⟨_, .unknown unknown whole (.known known decoded reads), .refl _⟩
      | unknown unknown whole reads =>
          cases reads with
          | known known decoded reads =>
              exact ⟨_, .known known decoded (.unknown unknown whole reads), .refl _⟩
          | unknown unknown' whole' reads =>
              exact ⟨_, .unknown unknown' whole' (.unknown unknown whole reads), .refl _⟩
  | trans _ _ first second =>
      obtain ⟨middle, reads, same⟩ := first reads
      obtain ⟨fields', reads', same'⟩ := second reads
      exact ⟨fields', reads', same'.trans same⟩

/-- A member whose name a record does not know. -/
def Unknown (r : Record φ) (member : Key × Json) : Prop :=
  ∃ name, member.1 = .text name ∧ r.fields.lookup name = none

theorem reads_append_unknown {added : List (Key × Json)} (unknown : ∀ member ∈ added, r.Unknown member)
    (whole : ∀ member ∈ added, member.2.isWhole = true) :
    r.Reads room (added ++ members) fields ↔ r.Reads room members fields := by
  induction added with
  | nil => rfl
  | cons member added ih =>
      obtain ⟨⟨name, named, missing⟩, rest⟩ := List.forall_mem_cons.mp unknown
      obtain ⟨whole, wholes⟩ := List.forall_mem_cons.mp whole
      obtain ⟨_, value⟩ := member
      obtain rfl : _ = Key.text name := named
      rw [List.cons_append, ← ih rest wholes]
      constructor
      · intro reads
        cases reads with
        | known known => rw [missing] at known; cases known
        | unknown _ _ reads => exact reads
      · exact .unknown missing whole

end Order

section Alike

/-- Values that are alike, and JSON to their end, are decoded to the same. -/
def Respects (decode : Decoder α) (alike : Json → Json → Prop) : Prop :=
  ∀ ⦃room : Nat⦄ ⦃j j' : Json⦄ ⦃x : α⦄, j.isWhole = true → j'.isWhole = true → alike j j' →
    (decode room j = .ok x ↔ decode room j' = .ok x)

/-- Arrays whose items are alike, one by one. -/
inductive ItemsAlike (alike : Json → Json → Prop) : Json → Json → Prop
  | array {items others : List Json} : List.Forall₂ alike items others →
      ItemsAlike alike (.array items) (.array others)

/-- The members of an object in any order, each with a value like the one that it had, among members whose
names a record does not know. -/
def Rearranged (r : Record φ) (alike : String → Json → Json → Prop)
    (members others : List (Key × Json)) : Prop :=
  ∃ added kept, others.Perm (added ++ kept) ∧ (∀ member ∈ added, r.Unknown member) ∧
    List.Forall₂ (fun member other => ∃ name, member.1 = .text name ∧ other.1 = .text name ∧
      alike name member.2 other.2) members kept

/-- Values that are the same but for the arrangement of a record's members. -/
inductive Alike (r : Record φ) (alike : String → Json → Json → Prop) : Json → Json → Prop
  | same (j : Json) : Alike r alike j j
  | object {members others : List (Key × Json)} : r.Rearranged alike members others →
      Alike r alike (.object members) (.object others)

theorem respects_eq (decode : Decoder α) : Respects decode Eq := by
  rintro room j _ x _ _ rfl
  rfl

theorem respects_map {β : Type} {decode : Decoder α} {alike : Json → Json → Prop}
    (respects : Respects decode alike) (f : α → β) : Respects (fun room j => f <$> decode room j) alike := by
  intro room j j' y whole whole' same
  simp only [Fallible.map_eq_ok_iff, respects whole whole' same]

theorem respects_list {decode : Decoder α} {alike : Json → Json → Prop}
    (respects : Respects decode alike) : Respects (decodeList decode) (ItemsAlike alike) := by
  rintro room _ _ xs whole whole' ⟨same⟩
  cases room with
  | zero => rfl
  | succ room =>
      rw [isWhole, areWhole_iff] at whole whole'
      simp only [decodeList, Fallible.mapM_eq_ok_iff]
      induction same generalizing xs with
      | nil => rfl
      | cons first _ ih =>
          obtain ⟨whole, wholes⟩ := List.forall_mem_cons.mp whole
          obtain ⟨whole', wholes'⟩ := List.forall_mem_cons.mp whole'
          simp only [List.forall₂_cons_left_iff, respects whole whole' first, ih wholes wholes']

end Alike

section Fields

/-- Fields under different names, each of which holds what its name stands for. -/
structure Separate (label : φ → String) (found : List (String × φ)) : Prop where
  names : (found.map Prod.fst).Nodup
  labels : ∀ field ∈ found, label field.2 = field.1

variable {label : φ → String} {found others : List (String × φ)}

theorem Separate.perm (separate : Separate label found) (perm : others.Perm found) :
    Separate label others :=
  ⟨(perm.map Prod.fst).nodup_iff.mpr separate.names,
    fun field mem => separate.labels field (perm.mem_iff.mp mem)⟩

/-- What stands under one name is found wherever it is. -/
theorem Separate.find?_eq_some_iff (separate : Separate label found) {pick : φ → Option α} {name : String}
    (picked : ∀ field x, pick field = some x → label field = name) {x : α} :
    find? pick found = some x ↔ ∃ field ∈ found, pick field.2 = some x := by
  constructor
  · exact exists_of_find?
  · rintro ⟨field, mem, is⟩
    have there : (find? pick found).isSome = true := List.findSome?_isSome_iff.mpr ⟨field, mem, by rw [is]; rfl⟩
    obtain ⟨y, first⟩ := Option.isSome_iff_exists.mp there
    obtain ⟨other, mem', is'⟩ := exists_of_find? first
    have same : field = other := List.inj_on_of_nodup_map separate.names mem mem' (by
      rw [← separate.labels field mem, ← separate.labels other mem', picked _ _ is, picked _ _ is'])
    rw [first, ← is, same, is']

/-- The order of the fields is not seen. -/
theorem Separate.find?_perm (separate : Separate label found) (perm : others.Perm found)
    {pick : φ → Option α} {name : String}
    (picked : ∀ field x, pick field = some x → label field = name) :
    find? pick others = find? pick found := by
  apply Option.ext
  intro x
  rw [separate.find?_eq_some_iff picked, (separate.perm perm).find?_eq_some_iff picked]
  simp only [perm.mem_iff]

theorem Reads.labels (labelled : ∀ field ∈ r.fields, Ensures field.2 fun x => label x = field.1)
    {members : List (Key × Json)} (reads : r.Reads room members found) :
    ∀ field ∈ found, label field.2 = field.1 := by
  induction reads with
  | nil => exact List.forall_mem_nil _
  | @known name _ decode _ _ _ known decoded _ ih =>
      obtain ⟨front, back, place, _⟩ := List.lookup_eq_some_iff.mp known
      exact List.forall_mem_cons.mpr ⟨labelled (name, decode) (by simp [place]) decoded, ih⟩
  | unknown _ _ _ ih => exact ih

end Fields

section Places

variable {name : String} {decode : Decoder φ}

end Places

section Arrangement

variable {alike : String → Json → Json → Prop}

theorem reads_alike
    (known : ∀ name decode, r.fields.lookup name = some decode → Respects decode (alike name))
    {members kept : List (Key × Json)}
    (same : List.Forall₂ (fun member other => ∃ name, member.1 = .text name ∧ other.1 = .text name ∧
      alike name member.2 other.2) members kept)
    (whole : ∀ member ∈ members, member.2.isWhole = true)
    (whole' : ∀ member ∈ kept, member.2.isWhole = true) {fields : List (String × φ)} :
    r.Reads room members fields ↔ r.Reads room kept fields := by
  induction same generalizing fields with
  | nil => rfl
  | @cons member other members kept first _ ih =>
      obtain ⟨_, value⟩ := member
      obtain ⟨_, value'⟩ := other
      obtain ⟨name, rfl : _ = Key.text name, rfl : _ = Key.text name, first⟩ := first
      obtain ⟨whole, wholes⟩ := List.forall_mem_cons.mp whole
      obtain ⟨whole', wholes'⟩ := List.forall_mem_cons.mp whole'
      constructor
      · intro reads
        cases reads with
        | known field decoded reads =>
            exact .known field ((known name _ field whole whole' first).mp decoded)
              ((ih wholes wholes').mp reads)
        | unknown missing _ reads => exact .unknown missing whole' ((ih wholes wholes').mp reads)
      · intro reads
        cases reads with
        | known field decoded reads =>
            exact .known field ((known name _ field whole whole' first).mpr decoded)
              ((ih wholes wholes').mpr reads)
        | unknown missing _ reads => exact .unknown missing whole ((ih wholes wholes').mpr reads)

/-- What is made of the fields of a record without regard to their order is decoded to the same from any
arrangement of its members. -/
theorem respects_alike {label : φ → String} {build : List (String × φ) → Except DecodeError α}
    (known : ∀ name decode, r.fields.lookup name = some decode → Respects decode (alike name))
    (labelled : ∀ field ∈ r.fields, Ensures field.2 fun x => label x = field.1)
    (stable : ∀ {found others}, Separate label found → others.Perm found → build others = build found) :
    Respects (fun room j => r.decode room j >>= build) (r.Alike alike) := by
  intro room j j' x whole whole' same
  cases same with
  | same => rfl
  | @object members others arranged =>
      cases room with
      | zero => rfl
      | succ room =>
          obtain ⟨added, kept, perm, unknown, same⟩ := arranged
          rw [isWhole] at whole whole'
          have wholes : ∀ member ∈ added ++ kept, member.2.isWhole = true := fun member mem =>
            whole_of_membersWhole whole' member (perm.mem_iff.mpr mem)
          obtain ⟨wholeAdded, wholeKept⟩ := List.forall_mem_append.mp wholes
          have agree (fields : List (String × φ)) :
              r.Reads room (added ++ kept) fields ↔ r.Reads room members fields :=
            (reads_append_unknown unknown wholeAdded).trans
              (reads_alike known same (whole_of_membersWhole whole) wholeKept).symm
          simp only [Fallible.bind_eq_ok_iff, decode_object_eq_ok_iff]
          constructor
          · rintro ⟨found, ⟨reads, names⟩, built⟩
            obtain ⟨fields, reads', order⟩ := ((agree found).mpr reads).perm perm.symm
            refine ⟨fields, ⟨reads', (order.map Prod.fst).nodup_iff.mpr names⟩, ?_⟩
            rw [stable ⟨names, reads.labels labelled⟩ order, built]
          · rintro ⟨found, ⟨reads, names⟩, built⟩
            obtain ⟨fields, reads', order⟩ := reads.perm perm
            refine ⟨fields, ⟨(agree fields).mp reads', (order.map Prod.fst).nodup_iff.mpr names⟩, ?_⟩
            rw [stable ⟨names, reads.labels labelled⟩ order, built]

end Arrangement

section Arrays

/-- Of different names each is looked up at its place. -/
theorem lookup_of_mem (distinct : (r.fields.map Prod.fst).Nodup) {field : String × Decoder φ}
    (mem : field ∈ r.fields) : r.fields.lookup field.1 = some field.2 := by
  obtain ⟨front, back, place⟩ := List.append_of_mem mem
  refine List.lookup_eq_some_iff.mpr ⟨front, back, place, fun other before => ?_⟩
  rw [place, List.map_append, List.nodup_append] at distinct
  exact bne_iff_ne.mpr
    (distinct.2.2 other.1 (List.mem_map_of_mem before) field.1 List.mem_cons_self).symm

/-- Every item gives one field. -/
theorem length_decodeItems {fields : List (String × Decoder φ)} {items : List Json}
    {found : List (String × φ)} (decoded : decodeItems room fields items = .ok found) :
    found.length = items.length := by
  induction fields generalizing items found with
  | nil =>
      cases items with
      | nil => rw [← Except.ok.inj decoded, List.length_nil, List.length_nil]
      | cons => cases decoded
  | cons field fields ih =>
      cases items with
      | nil => rw [← Except.ok.inj decoded, List.length_nil, List.length_nil]
      | cons item items =>
          obtain ⟨x, _, decoded⟩ := Fallible.bind_eq_ok_iff.mp decoded
          obtain ⟨others, rest, decoded⟩ := Fallible.bind_eq_ok_iff.mp decoded
          rw [← Except.ok.inj decoded, List.length_cons, List.length_cons, ih rest]

/-- Members under the names of fields are decoded as these fields in their order. -/
theorem decodeMembers_zip {fields : List (String × Decoder φ)}
    (known : ∀ field ∈ fields, r.fields.lookup field.1 = some field.2) (found : List (String × φ))
    (distinct : (found.map Prod.fst ++ fields.map Prod.fst).Nodup) {values : List Json}
    (all : values.length = fields.length) :
    r.decodeMembers room found
        (((fields.map Prod.fst).zip values).map fun member => (.text member.1, member.2)) =
      (found ++ ·) <$> decodeItems room fields values := by
  induction fields generalizing found values with
  | nil =>
      obtain rfl := List.eq_nil_of_length_eq_zero all
      exact congrArg Except.ok (List.append_nil found).symm
  | cons field fields ih =>
      obtain ⟨value, values, rfl⟩ := List.exists_cons_of_length_eq_add_one all
      obtain ⟨name, decode⟩ := field
      obtain ⟨first, others⟩ := List.forall_mem_cons.mp known
      have fresh : (found.lookup name).isSome = false := by
        rw [← Bool.not_eq_true, lookup_isSome_iff_mem]
        exact fun mem => (List.nodup_append.mp distinct).2.2 name mem name List.mem_cons_self rfl
      simp only [List.map_cons, List.zip_cons_cons, decodeMembers, decodeItems]
      simp only at first
      rw [first]
      simp only [fresh, Bool.false_eq_true, if_false]
      cases decode room value with
      | error => rfl
      | ok x =>
          have next := ih others (found ++ [(name, x)])
            (by simpa only [List.map_append, List.map_cons, List.map_nil, ← List.append_cons] using distinct)
            (Nat.succ.inj all)
          have step : ∀ {β : Type} (f : φ → Except DecodeError β), Except.ok x >>= f = f x := fun _ => rfl
          rw [step, step, next]
          cases decodeItems room fields values with
          | error => rfl
          | ok rest => exact congrArg Except.ok (List.append_cons found (name, x) rest).symm

/-- An array of all fields in their order is decoded as the object of these fields is, to the same fields
or to the same error. -/
theorem decode_array_eq (distinct : (r.fields.map Prod.fst).Nodup) (enough : r.required ≤ r.fields.length)
    {values : List Json} (all : values.length = r.fields.length) (room : Nat) :
    r.decode room (.array values) = r.decode room (.ofFields ((r.fields.map Prod.fst).zip values)) := by
  cases room with
  | zero => rfl
  | succ room =>
      have members : r.decode (room + 1) (.ofFields ((r.fields.map Prod.fst).zip values)) =
          ([] ++ ·) <$> decodeItems room r.fields values :=
        decodeMembers_zip (fun _ => lookup_of_mem distinct) [] distinct all
      have items : r.decode (room + 1) (.array values) = (do
          let found ← decodeItems room r.fields values
          if found.length < r.required then
            .error (.invalidLength found.length r.name r.fields.length)
          else .ok found) := rfl
      rw [members, items]
      cases decoded : decodeItems room r.fields values with
      | error => rfl
      | ok found =>
          have length := length_decodeItems decoded
          exact if_neg (by omega)

end Arrays

end CqlStatements.Json.Record
