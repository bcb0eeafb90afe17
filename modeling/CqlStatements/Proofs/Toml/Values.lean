import CqlStatements.Proofs.Toml.Numbers
import CqlStatements.Proofs.Toml.Strings
import CqlStatements.Toml.Reader

/-!
# Values read back from TOML text

A value begins with a character that tells its kind and that is no blank, and it ends where a comma, a
bracket or a line break follows. So it is read back wherever it is written: in its own line, or in an array,
whichever layout the array has. Twice the length of the text is always enough steps.
-/
namespace CqlStatements.Toml

/-- Values that are written: no tables and no moments, and no more than `room` arrays inside one another. -/
inductive Written : Nat → Toml → Prop
  | string {room} (s : String) : Written room (.string s)
  | integer {room} (n : Int64) : Written room (.integer n)
  | float {room} {x : Binary64} : Canonical x → Written room (.float x)
  | boolean {room} (b : Bool) : Written room (.boolean b)
  | array {room} {items : List Toml} : (∀ item ∈ items, Written room item) →
      Written (room + 1) (.array items)

section First

/-- What a number begins with: a sign, a digit or the first letter of a word. -/
def StartsNumber (c : Char) : Prop := c = '-' ∨ c = 'n' ∨ c = 'i' ∨ ∃ d, c = Numeral.digitChar d

/-- What a value begins with: nothing that is passed over, and not the end of an array. -/
def Starts (c : Char) : Prop :=
  isBlank c = false ∧ c ≠ '\n' ∧ c ≠ '\r' ∧ c ≠ '#' ∧ c ≠ ']'

theorem StartsNumber.other {c : Char} (start : StartsNumber c) :
    c ≠ '"' ∧ c ≠ '\x27' ∧ c ≠ '[' ∧ c ≠ '\x7b' ∧ c ≠ 't' ∧ c ≠ 'f' := by
  rcases start with rfl | rfl | rfl | ⟨d, rfl⟩
  · decide
  · decide
  · decide
  · revert d
    decide

theorem StartsNumber.starts {c : Char} (start : StartsNumber c) : Starts c := by
  unfold Starts
  rcases start with rfl | rfl | rfl | ⟨d, rfl⟩
  · decide
  · decide
  · decide
  · revert d
    decide

theorem integer_first (n : Int) : ∃ c cs, Integer.chars n = c :: cs ∧ StartsNumber c := by
  rw [Integer.chars]
  split
  · exact ⟨'-', _, rfl, .inl rfl⟩
  · obtain ⟨first, more, text, -, -⟩ := Numeral.exists_digits n.natAbs
    rw [text]
    exact ⟨_, _, rfl, .inr (.inr (.inr ⟨first, rfl⟩))⟩

theorem float_first (x : Binary64) : ∃ c cs, floatChars x = c :: cs ∧ StartsNumber c := by
  unfold floatChars
  split
  · exact ⟨'n', _, rfl, .inr (.inl rfl)⟩
  rename_i number
  split
  · obtain ⟨c, cs, text, start⟩ := Numeral.exists_chars_eq x.positional.withPoint
    rcases start with sign | digit
    · exact ⟨c, cs, text, .inl sign⟩
    · exact ⟨c, cs, text, .inr (.inr (.inr digit))⟩
  · rename_i infinite
    rw [Binary64.plain, if_neg number, if_neg infinite]
    cases x.isNegative with
    | true => exact ⟨'-', _, rfl, .inl rfl⟩
    | false => exact ⟨'i', _, rfl, .inr (.inr (.inl rfl))⟩

theorem string_first (s : String) : ∃ c cs, stringChars s = c :: cs ∧ (c = '"' ∨ c = '\x27') := by
  unfold stringChars
  dsimp only
  iterate 5
    split
    · first
        | exact ⟨'"', _, rfl, .inl rfl⟩
        | exact ⟨'\x27', _, rfl, .inr rfl⟩
  exact ⟨'"', _, rfl, .inl rfl⟩

theorem Written.first {room : Nat} {v : Toml} (written : Written room v) :
    ∃ c cs, valueChars v = c :: cs ∧ Starts c := by
  cases written with
  | string s =>
      obtain ⟨c, cs, text, start⟩ := string_first s
      refine ⟨c, cs, text, ?_⟩
      unfold Starts
      rcases start with rfl | rfl <;> decide
  | integer n =>
      obtain ⟨c, cs, text, start⟩ := integer_first n.toInt
      exact ⟨c, cs, text, start.starts⟩
  | @float _ x _ =>
      obtain ⟨c, cs, text, start⟩ := float_first x
      exact ⟨c, cs, text, start.starts⟩
  | boolean b =>
      unfold Starts
      cases b with
      | true => exact ⟨'t', _, rfl, by decide⟩
      | false => exact ⟨'f', _, rfl, by decide⟩
  | @array _ items _ =>
      unfold Starts
      match items with
      | [] => exact ⟨'[', _, rfl, by decide⟩
      | [_] => exact ⟨'[', _, rfl, by decide⟩
      | _ :: _ :: _ => exact ⟨'[', _, rfl, by decide⟩

theorem skipLines_of_starts {c : Char} (start : Starts c) (cs : List Char) :
    skipLines false (c :: cs) = c :: cs := by
  obtain ⟨blank, line, feed, comment, -⟩ := start
  rw [skipLines.eq_def]
  simp only [line, feed, blank, comment, if_false, Bool.false_eq_true]

theorem skipLines_line (cs : List Char) : skipLines false ('\n' :: cs) = skipLines false cs := by
  rw [skipLines.eq_def]
  rfl

theorem skipLines_blank {c : Char} (blank : isBlank c = true) (cs : List Char) :
    skipLines false (c :: cs) = skipLines false cs := by
  have line : c ≠ '\n' ∧ c ≠ '\r' := by
    constructor <;> (rintro rfl; cases blank)
  rw [skipLines.eq_def]
  simp only [line, blank, if_false, if_true, Bool.false_eq_true]

/-- What closes an array or goes on with it is not passed over. -/
theorem skipLines_mark {c : Char} (mark : c = ',' ∨ c = ']') (cs : List Char) :
    skipLines false (c :: cs) = c :: cs := by
  rw [skipLines.eq_def]
  rcases mark with rfl | rfl <;> rfl

/-- Nothing is passed over in front of a value. -/
theorem Written.skipLines_append {room : Nat} {v : Toml} (written : Written room v)
    (rest : List Char) : skipLines false (valueChars v ++ rest) = valueChars v ++ rest := by
  obtain ⟨c, cs, text, start⟩ := written.first
  rw [text, List.cons_append, skipLines_of_starts start]

end First

section Leaves

variable {steps room : Nat} {rest : List Char}

theorem readValue?_number {c : Char} (start : StartsNumber c) (cs : List Char) :
    readValue? (steps + 1) room (c :: cs) = readNumber? (c :: cs) := by
  obtain ⟨double, single, bracket, brace, t, f⟩ := start.other
  rw [readValue?.eq_def]
  simp only [double, single, bracket, brace, t, f, or_self, if_false]

variable (closes : Closes rest)
include closes

theorem readValue?_integer (n : Int64) :
    readValue? (steps + 1) room (Integer.chars n.toInt ++ rest) = some (.integer n, rest) := by
  have read := readNumber?_integer closes n
  obtain ⟨c, cs, text, start⟩ := integer_first n.toInt
  rw [text, List.cons_append] at read ⊢
  rw [readValue?_number start, read]

theorem readValue?_float {x : Binary64} (canonical : Canonical x) :
    readValue? (steps + 1) room (floatChars x ++ rest) = some (.float x, rest) := by
  have read := readNumber?_float closes canonical
  obtain ⟨c, cs, text, start⟩ := float_first x
  rw [text, List.cons_append] at read ⊢
  rw [readValue?_number start, read]

theorem readValue?_string (s : String) :
    readValue? (steps + 1) room (stringChars s ++ rest) = some (.string s, rest) := by
  have read := readString?_stringChars s (closes.ne (by decide)) (closes.ne (by decide))
  obtain ⟨c, cs, text, start⟩ := string_first s
  rw [text, List.cons_append] at read ⊢
  rw [readValue?.eq_def]
  simp only [start, if_true, read, Option.map_some]

omit closes in
theorem readValue?_boolean (b : Bool) :
    readValue? (steps + 1) room ((if b then "true".toList else "false".toList) ++ rest) =
      some (.boolean b, rest) := by
  cases b with
  | true =>
      have read : afterWord? "true" ('t' :: 'r' :: 'u' :: 'e' :: rest) = some rest :=
        afterWord?_append "true" rest
      show readValue? (steps + 1) room ('t' :: 'r' :: 'u' :: 'e' :: rest) = _
      rw [readValue?.eq_def]
      simp only [Char.reduceEq, or_self, if_false, if_true, read, Option.map_some]
  | false =>
      have read : afterWord? "false" ('f' :: 'a' :: 'l' :: 's' :: 'e' :: rest) = some rest :=
        afterWord?_append "false" rest
      show readValue? (steps + 1) room ('f' :: 'a' :: 'l' :: 's' :: 'e' :: rest) = _
      rw [readValue?.eq_def]
      simp only [Char.reduceEq, or_self, if_false, if_true, read, Option.map_some]

end Leaves

section Arrays

/-- A value is read back in front of whatever may follow it. -/
def ReadsBack (room : Nat) (v : Toml) : Prop :=
  ∀ {steps : Nat} {rest : List Char}, Closes rest → 2 * (valueChars v).length ≤ steps →
    readValue? steps room (valueChars v ++ rest) = some (v, rest)

variable {room steps : Nat}

theorem closes_cons {c : Char} (close : c = ',' ∨ c = ']' ∨ c = '\n') (cs : List Char) :
    Closes (c :: cs) := by
  intro first same
  rw [← Option.some.inj same]
  exact close

section Steps

variable {cs more : List Char} {item : Toml} (written : Written room item)
include written

/-- An item in front of a comma. -/
theorem readItems?_comma (first : skipLines false cs = valueChars item ++ ',' :: more)
    (read : readValue? steps room (valueChars item ++ ',' :: more) = some (item, ',' :: more)) :
    readItems? (steps + 1) room cs =
      (readItems? steps room more).map fun found => (item :: found.1, found.2) := by
  obtain ⟨c, tail, text, -, -, -, -, other⟩ := written.first
  rw [text, List.cons_append] at first read
  rw [readItems?, first]
  split
  · rename_i same
    exact absurd (List.cons.inj same).1 other
  · simp only [read, Option.bind_eq_bind, Option.bind_some, skipLines_mark (.inl rfl)]
    cases readItems? steps room more <;> rfl

/-- An item in front of the closing bracket. -/
theorem readItems?_last (first : skipLines false cs = valueChars item ++ ']' :: more)
    (read : readValue? steps room (valueChars item ++ ']' :: more) = some (item, ']' :: more)) :
    readItems? (steps + 1) room cs = some ([item], more) := by
  obtain ⟨c, tail, text, -, -, -, -, other⟩ := written.first
  rw [text, List.cons_append] at first read
  rw [readItems?, first]
  split
  · rename_i same
    exact absurd (List.cons.inj same).1 other
  · simp only [read, Option.bind_eq_bind, Option.bind_some, skipLines_mark (.inr rfl)]

end Steps

/-- Items on lines of their own, up to the closing bracket. -/
theorem readItems?_itemChars {items : List Toml} (written : ∀ item ∈ items, Written room item)
    (each : ∀ item ∈ items, ReadsBack room item) (rest : List Char)
    (enough : 2 * (itemChars items).length < steps) :
    readItems? steps room ('\n' :: (itemChars items ++ ']' :: rest)) = some (items, rest) := by
  induction items generalizing steps with
  | nil =>
      obtain ⟨steps, rfl⟩ := Nat.exists_eq_add_one_of_ne_zero (Nat.ne_zero_of_lt enough)
      rw [itemChars, List.nil_append, readItems?, skipLines_line, skipLines_mark (.inr rfl)]
      rfl
  | cons item items ih =>
      rw [List.forall_mem_cons] at written each
      obtain ⟨steps, rfl⟩ := Nat.exists_eq_add_one_of_ne_zero (Nat.ne_zero_of_lt enough)
      have length : (itemChars (item :: items)).length =
          (valueChars item).length + (itemChars items).length + 6 := by
        simp [itemChars]
        omega
      have more : 2 * (itemChars items).length < steps := by omega
      have others := ih written.2 each.2 more
      have text : itemChars (item :: items) ++ ']' :: rest = ' ' :: ' ' :: ' ' :: ' ' ::
          (valueChars item ++ ',' :: '\n' :: (itemChars items ++ ']' :: rest)) := by
        simp [itemChars]
      have first : skipLines false ('\n' :: (itemChars (item :: items) ++ ']' :: rest)) =
          valueChars item ++ ',' :: '\n' :: (itemChars items ++ ']' :: rest) := by
        rw [text, skipLines_line]
        iterate 4 rw [skipLines_blank rfl]
        exact written.1.skipLines_append _
      have own : 2 * (valueChars item).length ≤ steps := by omega
      have read := each.1 (closes_cons (.inl rfl) ('\n' :: (itemChars items ++ ']' :: rest))) own
      rw [readItems?_comma written.1 first read, others]
      rfl

theorem readValue?_array (cs : List Char) : readValue? (steps + 1) (room + 1) ('[' :: cs) =
    (readItems? steps room cs).map fun found => (.array found.1, found.2) := by
  rw [readValue?.eq_def]
  simp only [Char.reduceEq, or_self, if_false, if_true]

/-- The three layouts of an array. -/
theorem readsBack_array {items : List Toml} (written : ∀ item ∈ items, Written room item)
    (each : ∀ item ∈ items, ReadsBack room item) : ReadsBack (room + 1) (.array items) := by
  intro steps rest closes enough
  match items with
  | [] =>
      have length : (valueChars (.array [])).length = 2 := rfl
      obtain ⟨steps, rfl⟩ : ∃ k, steps = k + 1 + 1 := ⟨steps - 2, by omega⟩
      have text : valueChars (.array []) ++ rest = '[' :: ']' :: rest := rfl
      rw [text, readValue?_array, readItems?, skipLines_mark (.inr rfl)]
      rfl
  | [item] =>
      have length : (valueChars (.array [item])).length = (valueChars item).length + 2 := by
        simp [valueChars]
      obtain ⟨steps, rfl⟩ : ∃ k, steps = k + 1 + 1 := ⟨steps - 2, by omega⟩
      have own := written item List.mem_cons_self
      have text : valueChars (.array [item]) ++ rest = '[' :: (valueChars item ++ ']' :: rest) := by
        simp [valueChars]
      have more : 2 * (valueChars item).length ≤ steps := by omega
      have read := each item List.mem_cons_self (closes_cons (.inr (.inl rfl)) rest) more
      rw [text, readValue?_array, readItems?_last own (own.skipLines_append _) read]
      rfl
  | first :: second :: items =>
      have length : (valueChars (.array (first :: second :: items))).length =
          (itemChars (first :: second :: items)).length + 3 := by
        simp [valueChars]
      obtain ⟨steps, rfl⟩ := Nat.exists_eq_add_one_of_ne_zero (n := steps) (by omega)
      have text : valueChars (.array (first :: second :: items)) ++ rest =
          '[' :: '\n' :: (itemChars (first :: second :: items) ++ ']' :: rest) := by
        simp [valueChars]
      rw [text, readValue?_array, readItems?_itemChars written each rest (by omega)]
      rfl

theorem Written.length_pos {v : Toml} (written : Written room v) : 0 < (valueChars v).length := by
  obtain ⟨c, cs, text, -⟩ := written.first
  simp [text]

/-- One step is enough where none is spent on what is inside. -/
theorem readsBack_of_leaf {v : Toml} (written : Written room v)
    (leaf : ∀ {steps : Nat} {rest : List Char}, Closes rest →
      readValue? (steps + 1) room (valueChars v ++ rest) = some (v, rest)) : ReadsBack room v := by
  intro steps rest closes enough
  have pos := written.length_pos
  obtain ⟨steps, rfl⟩ := Nat.exists_eq_add_one_of_ne_zero (n := steps) (by omega)
  exact leaf closes

/-- A written value is read back. -/
theorem Written.readsBack {v : Toml} (written : Written room v) : ReadsBack room v := by
  induction written with
  | string s => exact readsBack_of_leaf (.string s) fun closes => readValue?_string closes s
  | integer n => exact readsBack_of_leaf (.integer n) fun closes => readValue?_integer closes n
  | float canonical =>
      exact readsBack_of_leaf (.float canonical) fun closes => readValue?_float closes canonical
  | boolean b => exact readsBack_of_leaf (.boolean b) fun _ => readValue?_boolean b
  | array written each => exact readsBack_array written each

end Arrays

end CqlStatements.Toml
