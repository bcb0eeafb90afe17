import CqlStatements.Proofs.Json.Numerals
import CqlStatements.Proofs.Json.Strings

/-!
# Trees read back from their texts

A relation says which texts spell a tree: its words, numerals and strings in each of their forms, and
between the parts of arrays and objects any number of blanks. It knows nothing of the reader. What spells
a tree is read as that tree, in front of everything that does not go on with a numeral, and the steps
that the reader has are always enough.
-/
namespace CqlStatements.Json

section Grammar

def Blanks (cs : List Char) : Prop := ∀ c ∈ cs, isBlank c = true

mutual

/-- A text, without blanks around it, spells a tree. -/
inductive Spelled : Json → List Char → Prop
  | null : Spelled .null "null".toList
  | bool (b : Bool) : Spelled (.bool b) (wordChars b)
  | number {n : Numeral} {cs : List Char} : n.Spelled cs → Spelled (.number n) cs
  | string {s : String} {cs : List Char} : StringText (some s) cs → Spelled (.string s) cs
  | unpaired {cs : List Char} : StringText none cs → Spelled .unpaired cs
  | emptyArray {gap : List Char} : Blanks gap → Spelled (.array []) ('[' :: gap ++ [']'])
  | array {items : List Json} {cs : List Char} : SpelledItems items cs →
      Spelled (.array items) ('[' :: cs ++ [']'])
  | emptyObject {gap : List Char} : Blanks gap → Spelled (.object []) ('\x7b' :: gap ++ ['\x7d'])
  | object {members : List (Key × Json)} {cs : List Char} : SpelledMembers members cs →
      Spelled (.object members) ('\x7b' :: cs ++ ['\x7d'])

/-- A text spells the items of an array, of which there is at least one. -/
inductive SpelledItems : List Json → List Char → Prop
  | last {item : Json} {front cs back : List Char} : Blanks front → Spelled item cs → Blanks back →
      SpelledItems [item] (front ++ cs ++ back)
  | cons {item : Json} {items : List Json} {front cs back more : List Char} : Blanks front →
      Spelled item cs → Blanks back → SpelledItems items more →
      SpelledItems (item :: items) (front ++ cs ++ back ++ ',' :: more)

/-- A text spells the members of an object, of which there is at least one. -/
inductive SpelledMembers : List (Key × Json) → List Char → Prop
  | last {text : Option String} {value : Json} {front name gap inner cs back : List Char} :
      Blanks front → StringText text name → Blanks gap → Blanks inner → Spelled value cs →
      Blanks back → SpelledMembers [(text.elim .unpaired .text, value)]
        (front ++ name ++ gap ++ ':' :: inner ++ cs ++ back)
  | cons {text : Option String} {value : Json} {members : List (Key × Json)}
      {front name gap inner cs back more : List Char} : Blanks front → StringText text name →
      Blanks gap → Blanks inner → Spelled value cs → Blanks back → SpelledMembers members more →
      SpelledMembers ((text.elim .unpaired .text, value) :: members)
        (front ++ name ++ gap ++ ':' :: inner ++ cs ++ back ++ ',' :: more)

end

end Grammar

section Blanks

theorem skipBlanks_append {front : List Char} (h : Blanks front) (cs : List Char) :
    skipBlanks (front ++ cs) = skipBlanks cs := by
  induction front with
  | nil => rfl
  | cons c front ih =>
      have blank : isBlank c = true := h c List.mem_cons_self
      rw [List.cons_append, skipBlanks, List.dropWhile_cons_of_pos blank]
      exact ih fun other member => h other (List.mem_cons_of_mem c member)

theorem skipBlanks_cons {c : Char} (h : isBlank c = false) (cs : List Char) :
    skipBlanks (c :: cs) = c :: cs := by
  rw [skipBlanks, List.dropWhile_cons_of_neg (by simp [h])]

/-- Text behind a value: nothing, a blank or what closes or goes on with the surrounding value. -/
def Follows (rest : List Char) : Prop :=
  ∀ c, rest.head? = some c → isBlank c = true ∨ c = ',' ∨ c = ']' ∨ c = '\x7d'

theorem Follows.ends {rest : List Char} (h : Follows rest) : Numeral.Ends rest := by
  intro c first
  have known : c = ' ' ∨ c = '\t' ∨ c = '\n' ∨ c = '\r' ∨ c = ',' ∨ c = ']' ∨ c = '\x7d' := by
    simpa only [isBlank, Bool.or_eq_true, beq_iff_eq, or_assoc] using h c first
  rcases known with rfl | rfl | rfl | rfl | rfl | rfl | rfl <;> decide

theorem follows_append {back : List Char} (h : Blanks back) {rest : List Char} (next : Follows rest) :
    Follows (back ++ rest) := by
  cases back with
  | nil => exact next
  | cons c back =>
      intro first same
      rw [List.cons_append, List.head?_cons, Option.some.injEq] at same
      exact .inl (same ▸ h c List.mem_cons_self)

theorem follows_cons {c : Char} (h : c = ',' ∨ c = ']' ∨ c = '\x7d') (cs : List Char) :
    Follows (c :: cs) := by
  intro first same
  rw [List.head?_cons, Option.some.injEq] at same
  exact .inr (same ▸ h)

end Blanks

section Values

/-- What a numeral begins with begins nothing else. -/
theorem numeral_first {c : Char} (h : c = '-' ∨ ∃ d, c = Numeral.digitChar d) :
    isBlank c = false ∧ c ≠ ']' ∧ c ≠ '"' ∧ c ≠ '[' ∧ c ≠ '\x7b' ∧ c ≠ 'n' ∧ c ≠ 't' ∧ c ≠ 'f' := by
  rcases h with rfl | ⟨d, rfl⟩
  · decide
  · revert d
    decide

/-- A value begins with something that is neither a blank nor the end of an array. -/
theorem Spelled.first {j : Json} {cs : List Char} (h : Spelled j cs) :
    ∃ c tail, cs = c :: tail ∧ isBlank c = false ∧ c ≠ ']' := by
  cases h with
  | null => exact ⟨'n', _, rfl, by decide⟩
  | bool b => cases b <;> exact ⟨_, _, rfl, by decide⟩
  | number spelled =>
      obtain ⟨c, tail, text, start⟩ := spelled.first
      exact ⟨c, tail, text, (numeral_first start).1, (numeral_first start).2.1⟩
  | string spelled | unpaired spelled =>
      obtain ⟨tail, text, _⟩ := spelled.read_append []
      exact ⟨'"', tail, text, by decide⟩
  | emptyArray => exact ⟨'[', _, rfl, by decide⟩
  | array => exact ⟨'[', _, rfl, by decide⟩
  | emptyObject => exact ⟨'\x7b', _, rfl, by decide⟩
  | object => exact ⟨'\x7b', _, rfl, by decide⟩

/-- Blanks in front of a value are passed over. -/
theorem Spelled.skipBlanks {j : Json} {cs front : List Char} (h : Spelled j cs) (blanks : Blanks front)
    (rest : List Char) : Json.skipBlanks (front ++ cs ++ rest) = cs ++ rest := by
  obtain ⟨c, tail, rfl, shown, _⟩ := h.first
  rw [List.append_assoc, skipBlanks_append blanks, List.cons_append, skipBlanks_cons shown]

theorem readWord_append (word : String) (value : Json) (rest : List Char) :
    readWord word value (word.toList ++ rest) = (value, some rest) := by
  have found : word.toList.isPrefixOf (word.toList ++ rest) = true :=
    List.isPrefixOf_iff_prefix.mpr (List.prefix_append _ _)
  rw [readWord, if_pos found, ← String.length_toList, List.drop_left]

variable {steps : Nat} {front : List Char} (blanks : Blanks front) {rest : List Char}
include blanks

/-- A value that is a word, a number or a string takes one step. -/
theorem readValue_leaf {j : Json} {cs : List Char} (h : Spelled j cs)
    (leaf : (∀ items, j ≠ .array items) ∧ ∀ members, j ≠ .object members) (follows : Follows rest) :
    readValue (steps + 1) (front ++ cs ++ rest) = (j, some rest) := by
  rw [readValue, h.skipBlanks blanks]
  cases h with
  | null => exact readWord_append "null" .null rest
  | bool b =>
      cases b with
      | true => exact readWord_append "true" (.bool true) rest
      | false => exact readWord_append "false" (.bool false) rest
  | number spelled =>
      obtain ⟨c, tail, rfl, start⟩ := spelled.first
      obtain ⟨_, _, quote, bracket, brace, n, t, f⟩ := numeral_first start
      have read := spelled.read_append follows.ends
      rw [List.cons_append] at read ⊢
      simp only [quote, bracket, brace, n, t, f, if_false, read]
  | string spelled | unpaired spelled =>
      obtain ⟨tail, rfl, read⟩ := spelled.read_append rest
      simp only [List.cons_append, if_true, read]
  | emptyArray => exact absurd rfl (leaf.1 _)
  | array => exact absurd rfl (leaf.1 _)
  | emptyObject => exact absurd rfl (leaf.2 _)
  | object => exact absurd rfl (leaf.2 _)

end Values

section Nested

/-- What is to be shown of a number of steps: it is enough for every text that is not too long. -/
def ReadsValues (steps : Nat) : Prop :=
  ∀ {j : Json} {cs front rest : List Char}, Spelled j cs → Blanks front → Follows rest →
    2 * cs.length ≤ steps + 1 → readValue steps (front ++ cs ++ rest) = (j, some rest)

def ReadsItems (steps : Nat) : Prop :=
  ∀ {items : List Json} {cs rest : List Char}, SpelledItems items cs → 2 * cs.length ≤ steps →
    readItems steps (cs ++ ']' :: rest) = (items, some rest)

def ReadsMembers (steps : Nat) : Prop :=
  ∀ {members : List (Key × Json)} {cs rest : List Char}, SpelledMembers members cs →
    2 * cs.length ≤ steps → readMembers steps (cs ++ '\x7d' :: rest) = (members, some rest)

theorem SpelledItems.first {items : List Json} {cs : List Char} (h : SpelledItems items cs)
    (rest : List Char) : ∃ c tail, skipBlanks (cs ++ rest) = c :: tail ∧ c ≠ ']' := by
  cases h with
  | last blanks value _ =>
      obtain ⟨c, tail, text, _, other⟩ := value.first
      rw [List.append_assoc, value.skipBlanks blanks, text]
      exact ⟨c, _, rfl, other⟩
  | cons blanks value _ _ =>
      obtain ⟨c, tail, text, _, other⟩ := value.first
      rw [List.append_assoc, List.append_assoc, value.skipBlanks blanks, text]
      exact ⟨c, _, rfl, other⟩

theorem SpelledMembers.first {members : List (Key × Json)} {cs : List Char}
    (h : SpelledMembers members cs) (rest : List Char) :
    ∃ tail, skipBlanks (cs ++ rest) = '"' :: tail := by
  cases h with
  | last blanks name _ _ _ _ | cons blanks name _ _ _ _ _ =>
      obtain ⟨tail, rfl, _⟩ := name.read_append []
      simp only [List.append_assoc, skipBlanks_append blanks, List.cons_append]
      exact ⟨_, skipBlanks_cons (by decide) _⟩

theorem readsValues_succ {steps : Nat} (items : ReadsItems steps) (members : ReadsMembers steps) :
    ReadsValues (steps + 1) := by
  intro j cs front rest spelled blanks follows enough
  cases spelled with
  | null => exact readValue_leaf blanks .null ⟨nofun, nofun⟩ follows
  | bool b => exact readValue_leaf blanks (.bool b) ⟨nofun, nofun⟩ follows
  | number spelled => exact readValue_leaf blanks (.number spelled) ⟨nofun, nofun⟩ follows
  | string spelled => exact readValue_leaf blanks (.string spelled) ⟨nofun, nofun⟩ follows
  | unpaired spelled => exact readValue_leaf blanks (.unpaired spelled) ⟨nofun, nofun⟩ follows
  | emptyArray gap =>
      rw [readValue, (Spelled.emptyArray gap).skipBlanks blanks]
      simp only [List.cons_append, List.append_assoc, List.nil_append, Char.reduceEq, if_false,
        if_true, skipBlanks_append gap, skipBlanks_cons (by decide : isBlank ']' = false)]
  | @array _ cs inside =>
      obtain ⟨c, tail, first, other⟩ := inside.first (']' :: rest)
      have read : readItems steps (cs ++ ']' :: rest) = (_, some rest) :=
        items inside (by simp at enough; omega)
      rw [readValue, (Spelled.array inside).skipBlanks blanks]
      simp only [List.cons_append, List.append_assoc, List.nil_append, Char.reduceEq, if_false,
        if_true, first]
      split
      · rename_i same
        exact absurd (List.cons.inj same).1 other
      · simp only [read]
  | emptyObject gap =>
      rw [readValue, (Spelled.emptyObject gap).skipBlanks blanks]
      simp only [List.cons_append, List.append_assoc, List.nil_append, Char.reduceEq, if_false,
        if_true, skipBlanks_append gap, skipBlanks_cons (by decide : isBlank '\x7d' = false)]
  | @object _ cs inside =>
      obtain ⟨tail, first⟩ := inside.first ('\x7d' :: rest)
      have read : readMembers steps (cs ++ '\x7d' :: rest) = (_, some rest) :=
        members inside (by simp at enough; omega)
      rw [readValue, (Spelled.object inside).skipBlanks blanks]
      simp only [List.cons_append, List.append_assoc, List.nil_append, Char.reduceEq, if_false,
        if_true, first]
      split
      · rename_i same
        exact absurd (List.cons.inj same).1 (by decide)
      · simp only [read]

theorem readsItems_succ {steps : Nat} (values : ReadsValues steps) (items : ReadsItems steps) :
    ReadsItems (steps + 1) := by
  intro _ _ rest spelled enough
  cases spelled with
  | @last item front cs back blanks value behind =>
      have follows : Follows (back ++ ']' :: rest) := follows_append behind (follows_cons (by simp) rest)
      have read := values value blanks follows (by simp at enough; omega)
      rw [List.append_assoc, readItems, read]
      simp only [skipBlanks_append behind, skipBlanks_cons (by decide : isBlank ']' = false)]
  | @cons item items' front cs back more blanks value behind others =>
      have follows : Follows (back ++ ',' :: (more ++ ']' :: rest)) :=
        follows_append behind (follows_cons (by simp) _)
      have read := values value blanks follows (by simp at enough; omega)
      have readOthers : readItems steps (more ++ ']' :: rest) = (_, some rest) :=
        items others (by simp at enough; omega)
      rw [List.append_assoc, List.append_assoc, List.cons_append, readItems, read]
      simp only [skipBlanks_append behind, skipBlanks_cons (by decide : isBlank ',' = false),
        readOthers]

theorem readsMembers_succ {steps : Nat} (values : ReadsValues steps)
    (members : ReadsMembers steps) : ReadsMembers (steps + 1) := by
  intro _ _ rest spelled enough
  cases spelled with
  | @last text value front name gap inner cs back blanks named blanksGap blanksInner spelled behind =>
      have follows : Follows (back ++ '\x7d' :: rest) :=
        follows_append behind (follows_cons (by simp) rest)
      have read := values spelled blanksInner follows (by simp at enough; omega)
      obtain ⟨tail, rfl, key⟩ :=
        named.read_append (gap ++ ':' :: (inner ++ cs ++ (back ++ '\x7d' :: rest)))
      simp only [List.append_assoc] at read key
      rw [readMembers]
      simp only [List.append_assoc, List.cons_append,
        skipBlanks_append blanks, skipBlanks_cons (by decide : isBlank '"' = false), key,
        skipBlanks_append blanksGap,
        skipBlanks_cons (by decide : isBlank ':' = false), read, skipBlanks_append behind,
        skipBlanks_cons (by decide : isBlank '\x7d' = false)]
  | @cons text value others front name gap inner cs back more blanks named blanksGap blanksInner
      spelled behind spelledOthers =>
      have follows : Follows (back ++ ',' :: (more ++ '\x7d' :: rest)) :=
        follows_append behind (follows_cons (by simp) _)
      have read := values spelled blanksInner follows (by simp at enough; omega)
      have readOthers : readMembers steps (more ++ '\x7d' :: rest) = (_, some rest) :=
        members spelledOthers (by simp at enough; omega)
      obtain ⟨tail, rfl, key⟩ := named.read_append
        (gap ++ ':' :: (inner ++ cs ++ (back ++ ',' :: (more ++ '\x7d' :: rest))))
      simp only [List.append_assoc] at read key readOthers
      rw [readMembers]
      simp only [List.append_assoc, List.cons_append,
        skipBlanks_append blanks, skipBlanks_cons (by decide : isBlank '"' = false), key,
        skipBlanks_append blanksGap,
        skipBlanks_cons (by decide : isBlank ':' = false), read, skipBlanks_append behind,
        skipBlanks_cons (by decide : isBlank ',' = false), readOthers]

theorem Spelled.length_pos {j : Json} {cs : List Char} (h : Spelled j cs) : 0 < cs.length := by
  obtain ⟨c, tail, rfl, _⟩ := h.first
  simp

/-- Steps in the number of twice the length of a text are enough to read it. -/
theorem reads (steps : Nat) : ReadsValues steps ∧ ReadsItems steps ∧ ReadsMembers steps := by
  induction steps with
  | zero =>
      refine ⟨?_, ?_, ?_⟩
      · intro j cs front rest spelled _ _ enough
        have pos := spelled.length_pos
        omega
      · intro items cs rest spelled enough
        cases spelled with
        | last _ value _ | cons _ value _ _ =>
            have pos := value.length_pos
            simp only [List.length_append] at enough
            omega
      · intro members cs rest spelled enough
        cases spelled with
        | last | cons => simp at enough
  | succ steps ih =>
      obtain ⟨values, items, members⟩ := ih
      exact ⟨readsValues_succ items members, readsItems_succ values items,
        readsMembers_succ values members⟩

end Nested

end CqlStatements.Json
