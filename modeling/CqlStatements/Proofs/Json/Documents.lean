import CqlStatements.Proofs.Json.Reading

/-!
# Texts that are JSON to their end

Wherever the reader comes to the end of a value, it has read a text that spells the tree it returns. So a
text is read to its end exactly if it spells a tree, with blanks around it, and then it spells no other.
-/
namespace CqlStatements.Json

/-- A text spells a tree and holds nothing but blanks besides. -/
def Document (j : Json) (text : String) : Prop :=
  ∃ front cs back, text.toList = front ++ cs ++ back ∧ Blanks front ∧ Spelled j cs ∧ Blanks back

theorem blanks_nil : Blanks [] := nofun

theorem document_of_spelled {j : Json} {text : String} (spelled : Spelled j text.toList) :
    Document j text :=
  ⟨[], text.toList, [], by simp, blanks_nil, spelled, blanks_nil⟩

section Sound

/-- What is to be shown of a number of steps: a value that was read to its end is spelled by what was
taken. -/
def SpellsValues (steps : Nat) : Prop :=
  ∀ {j : Json} {cs rest : List Char}, readValue steps cs = (j, some rest) →
    ∃ front text, Blanks front ∧ Spelled j text ∧ cs = front ++ text ++ rest

def SpellsItems (steps : Nat) : Prop :=
  ∀ {items : List Json} {cs rest : List Char}, readItems steps cs = (items, some rest) →
    ∃ text, SpelledItems items text ∧ cs = text ++ ']' :: rest

def SpellsMembers (steps : Nat) : Prop :=
  ∀ {members : List (Key × Json)} {cs rest : List Char},
    readMembers steps cs = (members, some rest) →
      ∃ text, SpelledMembers members text ∧ cs = text ++ '\x7d' :: rest

theorem exists_blanks (cs : List Char) : ∃ front, Blanks front ∧ cs = front ++ skipBlanks cs :=
  ⟨cs.takeWhile isBlank, fun _ mem => List.all_eq_true.mp List.all_takeWhile _ mem,
    List.takeWhile_append_dropWhile.symm⟩

variable {steps : Nat} {j : Json} {cs tail rest : List Char}

theorem spelled_of_word {word : String} {value : Json} (spelled : Spelled value word.toList)
    (read : readWord word value cs = (j, some rest)) : ∃ text, Spelled j text ∧ cs = text ++ rest := by
  unfold readWord at read
  split at read
  · rename_i found
    obtain ⟨rfl, behind⟩ := Prod.mk.inj read
    obtain ⟨tail, rfl⟩ := List.isPrefixOf_iff_prefix.mp found
    rw [← String.length_toList, List.drop_left] at behind
    exact ⟨_, spelled, by rw [Option.some.inj behind]⟩
  · cases (Prod.mk.inj read).2

theorem spelled_of_quote (first : skipBlanks cs = '"' :: tail)
    (read : readValue (steps + 1) cs = (j, some rest)) :
    ∃ text, Spelled j text ∧ '"' :: tail = text ++ rest := by
  simp only [readValue, first, if_true] at read
  cases string : readText tail with
  | none => simp [string] at read
  | some found =>
      obtain ⟨text, behind⟩ := found
      obtain ⟨body, spelled, rfl⟩ := stringText_of_readText string
      cases text with
      | none =>
          simp only [string, Prod.mk.injEq, Option.some.injEq] at read
          obtain ⟨rfl, rfl⟩ := read
          exact ⟨_, .unpaired spelled, rfl⟩
      | some s =>
          simp only [string, Prod.mk.injEq, Option.some.injEq] at read
          obtain ⟨rfl, rfl⟩ := read
          exact ⟨_, .string spelled, rfl⟩

/-- Behind what opens a value there is what closes it, but for blanks, or something inside. -/
theorem spelled_of_opening {α : Type} {opening closing : Char} {make : List α → Json}
    {Inside : List α → List Char → Prop} {inside : List α × Option (List Char)}
    (empty : ∀ {gap}, Blanks gap → Spelled (make []) (opening :: gap ++ [closing]))
    (full : ∀ {xs text}, Inside xs text → Spelled (make xs) (opening :: text ++ [closing]))
    (sound : ∀ {xs}, inside = (xs, some rest) → ∃ text, Inside xs text ∧ tail = text ++ closing :: rest)
    (read : skipBlanks tail = closing :: rest ∧ make [] = j ∨ (make inside.1, inside.2) = (j, some rest)) :
    ∃ text, Spelled j text ∧ opening :: tail = text ++ rest := by
  rcases read with ⟨closed, rfl⟩ | read
  · obtain ⟨gap, blanks, split⟩ := exists_blanks tail
    refine ⟨_, empty blanks, ?_⟩
    rw [split, closed]
    simp only [List.cons_append, List.append_assoc, List.nil_append]
  · obtain ⟨xs, behind⟩ := inside
    obtain ⟨rfl, rfl⟩ := Prod.mk.inj read
    obtain ⟨text, spelled, rfl⟩ := sound rfl
    refine ⟨_, full spelled, ?_⟩
    simp only [List.cons_append, List.append_assoc, List.nil_append]

theorem spelled_of_bracket (items : SpellsItems steps) (first : skipBlanks cs = '[' :: tail)
    (read : readValue (steps + 1) cs = (j, some rest)) :
    ∃ text, Spelled j text ∧ '[' :: tail = text ++ rest := by
  simp only [readValue, first, Char.reduceEq, if_false, if_true] at read
  refine spelled_of_opening .emptyArray .array items ?_
  split at read
  · rename_i closed
    obtain ⟨same, behind⟩ := Prod.mk.inj read
    exact .inl ⟨Option.some.inj behind ▸ closed, same⟩
  · exact .inr read

theorem spelled_of_brace (members : SpellsMembers steps) (first : skipBlanks cs = '\x7b' :: tail)
    (read : readValue (steps + 1) cs = (j, some rest)) :
    ∃ text, Spelled j text ∧ '\x7b' :: tail = text ++ rest := by
  simp only [readValue, first, Char.reduceEq, if_false, if_true] at read
  refine spelled_of_opening .emptyObject .object members ?_
  split at read
  · rename_i closed
    obtain ⟨same, behind⟩ := Prod.mk.inj read
    exact .inl ⟨Option.some.inj behind ▸ closed, same⟩
  · exact .inr read

/-- What does not begin with a sign of its own is a word or a number. -/
theorem spelled_of_other {c : Char} (quote : c ≠ '"') (bracket : c ≠ '[') (brace : c ≠ '\x7b')
    (first : skipBlanks cs = c :: tail) (read : readValue (steps + 1) cs = (j, some rest)) :
    ∃ text, Spelled j text ∧ c :: tail = text ++ rest := by
  simp only [readValue, first, quote, bracket, brace, if_false] at read
  split at read
  · exact spelled_of_word .null read
  split at read
  · exact spelled_of_word (.bool true) read
  split at read
  · exact spelled_of_word (.bool false) read
  cases number : readNumeral (c :: tail) with
  | none => simp [number] at read
  | some found =>
      obtain ⟨n, behind⟩ := found
      simp only [number, Prod.mk.injEq, Option.some.injEq] at read
      obtain ⟨rfl, rfl⟩ := read
      obtain ⟨text, spelled, same⟩ := Numeral.spelled_of_readNumeral number
      exact ⟨text, .number spelled, same⟩

theorem spellsValues_succ (items : SpellsItems steps) (members : SpellsMembers steps) :
    SpellsValues (steps + 1) := by
  intro j cs rest read
  obtain ⟨front, blanks, split⟩ := exists_blanks cs
  suffices shown : ∃ text, Spelled j text ∧ skipBlanks cs = text ++ rest by
    obtain ⟨text, spelled, same⟩ := shown
    exact ⟨front, text, blanks, spelled, by rw [List.append_assoc, ← same]; exact split⟩
  cases first : skipBlanks cs with
  | nil => simp [readValue, first] at read
  | cons c tail =>
      by_cases quote : c = '"'
      · subst quote
        exact spelled_of_quote first read
      by_cases bracket : c = '['
      · subst bracket
        exact spelled_of_bracket items first read
      by_cases brace : c = '\x7b'
      · subst brace
        exact spelled_of_brace members first read
      exact spelled_of_other quote bracket brace first read

theorem spellsItems_succ (values : SpellsValues steps) (items : SpellsItems steps) :
    SpellsItems (steps + 1) := by
  intro found cs rest read
  rw [readItems] at read
  rcases value : readValue steps cs with ⟨item, _ | behind⟩
  · simp [value] at read
  · obtain ⟨front, text, blanks, spelled, rfl⟩ := values value
    obtain ⟨back, blanksBack, splitBack⟩ := exists_blanks behind
    simp only [value] at read
    split at read
    · rename_i others first
      rcases inside : readItems steps others with ⟨more, behind'⟩
      simp only [inside, Prod.mk.injEq] at read
      obtain ⟨rfl, rfl⟩ := read
      obtain ⟨text', spelled', rfl⟩ := items inside
      refine ⟨_, .cons blanks spelled blanksBack spelled', ?_⟩
      rw [splitBack, first]
      simp only [List.append_assoc, List.cons_append]
    · rename_i others first
      simp only [Prod.mk.injEq, Option.some.injEq] at read
      obtain ⟨rfl, rfl⟩ := read
      refine ⟨_, .last blanks spelled blanksBack, ?_⟩
      rw [splitBack, first]
      simp only [List.append_assoc]
    · simp at read

theorem spellsMembers_succ (values : SpellsValues steps) (members : SpellsMembers steps) :
    SpellsMembers (steps + 1) := by
  intro found cs rest read
  obtain ⟨front, blanks, split⟩ := exists_blanks cs
  rw [readMembers] at read
  rw [split]
  generalize skipBlanks cs = shown at read ⊢
  split at read
  · rename_i tail
    cases string : readText tail with
    | none => simp [string] at read
    | some named =>
        obtain ⟨text, behind⟩ := named
        obtain ⟨body, name, rfl⟩ := stringText_of_readText string
        obtain ⟨gap, blanksGap, splitGap⟩ := exists_blanks behind
        simp only [string] at read
        split at read
        · rename_i inside first
          rcases value : readValue steps inside with ⟨item, _ | behind'⟩
          · simp [value] at read
          · obtain ⟨inner, cs', blanksInner, spelled, rfl⟩ := values value
            obtain ⟨back, blanksBack, splitBack⟩ := exists_blanks behind'
            simp only [value] at read
            split at read
            · rename_i others next
              rcases more : readMembers steps others with ⟨found', rest'⟩
              simp only [more, Prod.mk.injEq] at read
              obtain ⟨rfl, rfl⟩ := read
              obtain ⟨text', spelled', rfl⟩ := members more
              refine ⟨_, .cons blanks name blanksGap blanksInner spelled blanksBack spelled', ?_⟩
              rw [splitGap, first, splitBack, next]
              simp only [List.append_assoc, List.cons_append]
            · rename_i others next
              simp only [Prod.mk.injEq, Option.some.injEq] at read
              obtain ⟨rfl, rfl⟩ := read
              refine ⟨_, .last blanks name blanksGap blanksInner spelled blanksBack, ?_⟩
              rw [splitGap, first, splitBack, next]
              simp only [List.append_assoc, List.cons_append]
            · simp at read
        · simp at read
  · simp at read

/-- Whatever the number of steps, what was read to its end is spelled by what was taken. -/
theorem spells (steps : Nat) : SpellsValues steps ∧ SpellsItems steps ∧ SpellsMembers steps := by
  induction steps with
  | zero =>
      refine ⟨?_, ?_, ?_⟩ <;>
        · intro _ _ _ read
          cases (Prod.mk.inj read).2
  | succ steps ih =>
      obtain ⟨values, items, members⟩ := ih
      exact ⟨spellsValues_succ items members, spellsItems_succ values items,
        spellsMembers_succ values members⟩

end Sound

section Whole

theorem elim_ne_absent (text : Option String) : text.elim Key.unpaired Key.text ≠ .absent := by
  cases text <;> exact nofun

mutual

/-- What a text spells is JSON to its end. -/
theorem Spelled.isWhole {j : Json} {cs : List Char} : Spelled j cs → j.isWhole = true
  | .null | .bool _ | .number _ | .string _ | .unpaired _ => by simp only [Json.isWhole]
  | .emptyArray _ => by simp only [Json.isWhole, areWhole]
  | .array items => by rw [Json.isWhole]; exact items.areWhole
  | .emptyObject _ => by simp only [Json.isWhole, membersWhole]
  | .object members => by rw [Json.isWhole]; exact members.membersWhole

theorem SpelledItems.areWhole {items : List Json} {cs : List Char} :
    SpelledItems items cs → Json.areWhole items = true
  | .last _ value _ => by simp only [Json.areWhole, value.isWhole, Bool.and_self]
  | .cons _ value _ others => by simp only [Json.areWhole, value.isWhole, others.areWhole, Bool.and_self]

theorem SpelledMembers.membersWhole {members : List (Key × Json)} {cs : List Char} :
    SpelledMembers members cs → Json.membersWhole members = true
  | .last _ _ _ _ value _ => by simp [Json.membersWhole, value.isWhole, elim_ne_absent]
  | .cons _ _ _ _ value _ others => by
      simp [Json.membersWhole, value.isWhole, others.membersWhole, elim_ne_absent]

end

theorem Document.isWhole {j : Json} {text : String} (document : Document j text) : j.isWhole = true := by
  obtain ⟨_, _, _, _, _, spelled, _⟩ := document
  exact spelled.isWhole

end Whole

theorem Document.ofText {j : Json} {text : String} (document : Document j text) :
    Json.ofText text = (j, true) := by
  obtain ⟨front, cs, back, whole, blanks, spelled, behind⟩ := document
  have follows : Follows back := by
    have nothing : Follows (back ++ []) := follows_append behind nofun
    rwa [List.append_nil] at nothing
  have long : cs.length ≤ text.length := by
    rw [← String.length_toList, whole]
    simp only [List.length_append]
    omega
  have read : readValue (2 * text.length + 2) (front ++ cs ++ back) = (j, some back) :=
    (reads _).1 spelled blanks follows (by omega)
  have rest : skipBlanks back = [] := by
    rw [← List.append_nil back, skipBlanks_append behind]
    rfl
  rw [Json.ofText, whole, read]
  simp only [rest, List.isEmpty_nil]

/-- A text is read to its end exactly if it spells the tree that is read. -/
theorem ofText_eq_iff {j : Json} {text : String} : ofText text = (j, true) ↔ Document j text := by
  constructor
  · intro read
    unfold Json.ofText at read
    split at read
    · rename_i tree rest value
      obtain ⟨rfl, ended⟩ := Prod.mk.inj read
      obtain ⟨front, cs, blanks, spelled, whole⟩ := (spells _).1 value
      obtain ⟨back, behind, split⟩ := exists_blanks rest
      rw [List.isEmpty_iff.mp ended, List.append_nil] at split
      exact ⟨front, cs, back, split ▸ whole, blanks, spelled, behind⟩
    · cases (Prod.mk.inj read).2
  · exact Document.ofText

end CqlStatements.Json
