import CqlStatements.Json.Decode
import CqlStatements.Json.Writer
import CqlStatements.Proofs.Json.Documents

/-!
# Written texts read back

What either layout writes of a tree spells this tree, so reading gives back the very tree that was written,
to its last character. This holds of all trees that can be taken in full: a tree with a broken place or
half of a surrogate pair has no text.
-/
namespace CqlStatements.Json

section Fitting

theorem allFit_iff {room : Nat} {items : List Json} :
    allFit room items = true ↔ ∀ item ∈ items, item.fits room = true := by
  induction items with
  | nil => simp [allFit]
  | cons item items ih => simp [allFit, ih]

theorem membersFit_iff {room : Nat} {members : List (Key × Json)} :
    membersFit room members = true ↔
      ∀ member ∈ members, (∃ s, member.1 = .text s) ∧ member.2.fits room = true := by
  induction members with
  | nil => simp [membersFit]
  | cons member members ih =>
      obtain ⟨key, value⟩ := member
      cases key <;> simp [membersFit, ih]

/-- Trees that can be taken in full, built up from their leaves. -/
theorem fits_induction {P : Json → Prop} (null : P .null) (bool : ∀ b, P (.bool b))
    (number : ∀ n, P (.number n)) (string : ∀ s, P (.string s))
    (array : ∀ items, (∀ item ∈ items, P item) → P (.array items))
    (object : ∀ members, (∀ member ∈ members, (∃ s, member.1 = .text s) ∧ P member.2) →
      P (.object members)) {room : Nat} {j : Json} (h : j.fits room = true) : P j := by
  induction room generalizing j with
  | zero =>
      cases j with
      | null => exact null
      | bool b => exact bool b
      | number n => exact number n
      | string s => exact string s
      | unpaired | broken | array | object => simp [fits] at h
  | succ room ih =>
      cases j with
      | null => exact null
      | bool b => exact bool b
      | number n => exact number n
      | string s => exact string s
      | unpaired | broken => simp [fits] at h
      | array items =>
          rw [fits, allFit_iff] at h
          exact array items fun item mem => ih (h item mem)
      | object members =>
          rw [fits, membersFit_iff] at h
          exact object members fun member mem => ⟨(h member mem).1, ih (h member mem).2⟩

theorem fits_map {α : Type} {encode : α → Json} {xs : List α} {room : Nat}
    (each : ∀ x ∈ xs, (encode x).fits room = true) :
    (Json.array (xs.map encode)).fits (room + 1) = true := by
  rw [fits, allFit_iff, List.forall_mem_map]
  exact each

theorem fits_ofFields {members : List (String × Json)} {room : Nat}
    (each : ∀ member ∈ members, member.2.fits room = true) :
    (ofFields members).fits (room + 1) = true := by
  rw [ofFields, fits, membersFit_iff, List.forall_mem_map]
  exact fun member mem => ⟨⟨member.1, rfl⟩, each member mem⟩

end Fitting

/-! Behind the name of a member a writer sets the colon at once. -/
section Members

variable {value : Json} {front inner cs back : List Char}

theorem spelledMembers_last (s : String) (before : Blanks front) (innerBlanks : Blanks inner)
    (spelled : Spelled value cs) (behind : Blanks back) :
    SpelledMembers [(.text s, value)] (front ++ (quoteChars s ++ ':' :: (inner ++ cs)) ++ back) := by
  have member : SpelledMembers [(.text s, value)]
      (front ++ quoteChars s ++ [] ++ ':' :: inner ++ cs ++ back) :=
    .last before (stringText_quoteChars s) blanks_nil innerBlanks spelled behind
  simpa only [List.append_nil, List.append_assoc, List.cons_append] using member

theorem spelledMembers_cons (s : String) (before : Blanks front) (innerBlanks : Blanks inner)
    (spelled : Spelled value cs) {members : List (Key × Json)} {more : List Char}
    (others : SpelledMembers members more) :
    SpelledMembers ((.text s, value) :: members)
      (front ++ (quoteChars s ++ ':' :: (inner ++ cs)) ++ ',' :: more) := by
  have member : SpelledMembers ((.text s, value) :: members)
      (front ++ quoteChars s ++ [] ++ ':' :: inner ++ cs ++ [] ++ ',' :: more) :=
    .cons before (stringText_quoteChars s) blanks_nil innerBlanks spelled blanks_nil others
  simpa only [List.append_nil, List.append_assoc, List.cons_append] using member

end Members

/-! A layout writes item by item and member by member, with a comma and a gap between them. -/
section Layout

variable {gap inner back : List Char} {write : Json → List Char}

/-- Items that are spelled one by one, laid out with blanks around them. -/
theorem spelledItems_of_layout (writeItems : List Json → List Char)
    (one : ∀ item, writeItems [item] = write item)
    (further : ∀ item next items, writeItems (item :: next :: items) =
      write item ++ ',' :: (gap ++ writeItems (next :: items)))
    (gapped : Blanks gap) (behind : Blanks back) {items : List Json} (nonempty : items ≠ [])
    (each : ∀ item ∈ items, Spelled item (write item)) {front : List Char} (before : Blanks front) :
    SpelledItems items (front ++ writeItems items ++ back) := by
  induction items generalizing front with
  | nil => exact absurd rfl nonempty
  | cons item items ih =>
      have first := each item List.mem_cons_self
      cases items with
      | nil =>
          rw [one]
          exact .last before first behind
      | cons next items =>
          have others := ih (List.cons_ne_nil _ _)
            (fun other member => each other (List.mem_cons_of_mem item member)) gapped
          have spelled : SpelledItems (item :: next :: items)
              (front ++ write item ++ [] ++ ',' :: (gap ++ writeItems (next :: items) ++ back)) :=
            .cons before first blanks_nil others
          rw [further]
          simpa only [List.append_nil, List.append_assoc, List.cons_append] using spelled

/-- The same for members; behind the colon of each there may be blanks as well. -/
theorem spelledMembers_of_layout (writeMembers : List (Key × Json) → List Char)
    (one : ∀ key value, writeMembers [(key, value)] = keyChars key ++ ':' :: (inner ++ write value))
    (further : ∀ key value next members, writeMembers ((key, value) :: next :: members) =
      keyChars key ++ ':' :: (inner ++ write value ++ ',' :: (gap ++ writeMembers (next :: members))))
    (gapped : Blanks gap) (innerBlanks : Blanks inner) (behind : Blanks back)
    {members : List (Key × Json)} (nonempty : members ≠ [])
    (each : ∀ member ∈ members, (∃ s, member.1 = .text s) ∧ Spelled member.2 (write member.2))
    {front : List Char} (before : Blanks front) :
    SpelledMembers members (front ++ writeMembers members ++ back) := by
  induction members generalizing front with
  | nil => exact absurd rfl nonempty
  | cons member members ih =>
      obtain ⟨key, value⟩ := member
      obtain ⟨⟨s, rfl⟩, first⟩ := each _ List.mem_cons_self
      cases members with
      | nil =>
          rw [one]
          exact spelledMembers_last s before innerBlanks first behind
      | cons next members =>
          have others := ih (List.cons_ne_nil _ _)
            (fun other member => each other (List.mem_cons_of_mem _ member)) gapped
          have spelled := spelledMembers_cons s before innerBlanks first others
          rw [further]
          simpa only [keyChars, List.append_assoc, List.cons_append] using spelled

end Layout

/-- What is written of a tree without blanks spells it. -/
theorem spelled_compactChars {room : Nat} {j : Json} (h : j.fits room = true) :
    Spelled j j.compactChars := by
  refine fits_induction (P := fun j => Spelled j j.compactChars) .null .bool
    (fun n => .number n.spelled_chars) (fun s => .string (stringText_quoteChars s)) ?_ ?_ h
  · intro items each
    by_cases nonempty : items ≠ []
    · have spelled := spelledItems_of_layout compactItems (fun _ => rfl) (fun _ _ _ => rfl) blanks_nil
        blanks_nil nonempty each blanks_nil
      rw [List.nil_append, List.append_nil] at spelled
      exact .array spelled
    · obtain rfl := not_not.mp nonempty
      exact .emptyArray blanks_nil
  · intro members each
    by_cases nonempty : members ≠ []
    · have spelled := spelledMembers_of_layout compactMembers (fun _ _ => rfl)
        (fun _ _ _ _ => by simp only [compactMembers, List.append_assoc, List.cons_append]; rfl)
        blanks_nil blanks_nil blanks_nil nonempty each blanks_nil
      rw [List.nil_append, List.append_nil] at spelled
      exact .object spelled
    · obtain rfl := not_not.mp nonempty
      exact .emptyObject blanks_nil

theorem blanks_newLine (level : Nat) : Blanks (newLine level) := by
  intro c mem
  rcases List.mem_cons.mp mem with rfl | mem
  · rfl
  · rw [List.eq_of_mem_replicate mem]
    rfl

/-- What is written of a tree line by line spells it, at every level of nesting. -/
theorem spelled_indentedChars {room : Nat} {j : Json} (h : j.fits room = true) :
    ∀ level, Spelled j (j.indentedChars level) := by
  refine fits_induction (P := fun j => ∀ level, Spelled j (j.indentedChars level)) (fun _ => .null)
    (fun b _ => .bool b) (fun n _ => .number n.spelled_chars)
    (fun s _ => .string (stringText_quoteChars s)) ?_ ?_ h
  · intro items each level
    cases items with
    | nil => exact .emptyArray blanks_nil
    | cons item items =>
        have spelled := spelledItems_of_layout (indentedItems (level + 1)) (fun _ => rfl)
          (fun _ _ _ => by simp only [indentedItems, List.append_assoc, List.cons_append])
          (blanks_newLine (level + 1)) (blanks_newLine level) (List.cons_ne_nil item items)
          (fun other mem => each other mem (level + 1)) (blanks_newLine (level + 1))
        exact .array spelled
  · intro members each level
    cases members with
    | nil => exact .emptyObject blanks_nil
    | cons member members =>
        have colon : Blanks [' '] := by
          intro c mem
          rw [List.mem_singleton.mp mem]
          rfl
        have spelled := spelledMembers_of_layout (indentedMembers (level + 1))
          (fun _ _ => by simp only [indentedMembers, List.append_assoc]; rfl)
          (fun _ _ _ _ => by simp only [indentedMembers, List.append_assoc, List.cons_append]; rfl)
          (blanks_newLine (level + 1)) colon (blanks_newLine level) (List.cons_ne_nil member members)
          (fun other mem => ⟨(each other mem).1, (each other mem).2 (level + 1)⟩)
          (blanks_newLine (level + 1))
        exact .object spelled

theorem document_compact {room : Nat} {j : Json} (h : j.fits room = true) : Document j j.compact :=
  document_of_spelled (by rw [compact, String.toList_ofList]; exact spelled_compactChars h)

theorem document_indented {room : Nat} {j : Json} (h : j.fits room = true) : Document j j.indented :=
  document_of_spelled (by rw [indented, String.toList_ofList]; exact spelled_indentedChars h 0)

end CqlStatements.Json
