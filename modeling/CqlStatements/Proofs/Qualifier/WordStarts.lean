import CqlStatements.Proofs.Qualifier.Matching

/-!
# Word starts by their positions

A scan carries the character in front of the text along. At a position of the whole text that character
is the one before the position, so what a scan finds is stated about positions alone. Only whether a word
character stands in front matters.
-/
namespace CqlStatements.Qualifier

/-- The character in front of a position, given the one in front of the text. -/
def characterBefore (previous : Option Char) (text : List Char) : ℕ → Option Char
  | 0 => previous
  | i + 1 => text[i]?

/-- No word character stands in front of the position. -/
def BoundaryAt (previous : Option Char) (text : List Char) (i : ℕ) : Prop :=
  boundary (characterBefore previous text i) = true

instance (previous : Option Char) (text : List Char) (i : ℕ) :
    Decidable (BoundaryAt previous text i) :=
  inferInstanceAs (Decidable (_ = _))

theorem boundaryAt_succ (previous : Option Char) (c : Char) (text : List Char) (i : ℕ) :
    BoundaryAt previous (c :: text) (i + 1) ↔ BoundaryAt (some c) text i := by
  cases i with
  | zero => rfl
  | succ i =>
      simp only [BoundaryAt, characterBefore, List.getElem?_cons_succ]

/-- Behind a boundary a rest of the text is scanned like the text. -/
theorem boundaryAt_drop {text : List Char} {j : ℕ} (bound : BoundaryAt none text j) (i : ℕ) :
    BoundaryAt none (text.drop j) i ↔ BoundaryAt none text (j + i) := by
  cases i with
  | zero => exact iff_of_true rfl bound
  | succ i =>
      rw [← Nat.add_assoc]
      simp only [BoundaryAt, characterBefore, List.getElem?_drop]

theorem boundary_some {c : Char} : boundary (some c) = !isWordChar c := by
  simp only [boundary, Option.any_some]

/-- The value at the first position that has one. -/
def First {α : Type} (holds : ℕ → α → Prop) (value : α) : Prop :=
  ∃ i, holds i value ∧ ∀ k < i, ∀ other, ¬holds k other

theorem First.exists {α : Type} {holds : ℕ → α → Prop} {i : ℕ} {value : α}
    (held : holds i value) : ∃ first, First holds first := by
  induction i using Nat.strongRecOn generalizing value with
  | _ i ih =>
      by_cases earlier : ∃ k < i, ∃ other, holds k other
      · obtain ⟨k, lt, other, held⟩ := earlier
        exact ih k lt held
      · refine ⟨value, i, held, ?_⟩
        intro k lt other held
        exact earlier ⟨k, lt, other, held⟩

theorem First.congr {α : Type} {holds holds' : ℕ → α → Prop} {value : α}
    (same : ∀ i value, holds i value ↔ holds' i value) : First holds value ↔ First holds' value := by
  simp only [First, same]

theorem First.zero {α : Type} {holds : ℕ → α → Prop} {value : α} (held : holds 0 value)
    (unique : ∀ other, holds 0 other → other = value) (other : α) :
    First holds other ↔ other = value := by
  constructor
  · intro first
    obtain ⟨i, held_other, earlier⟩ := first
    cases i with
    | zero => exact unique other held_other
    | succ i => exact absurd held (earlier 0 (Nat.succ_pos i) value)
  · intro same
    rw [same]
    exact ⟨0, held, by omega⟩

theorem First.succ {α : Type} {holds : ℕ → α → Prop} (none : ∀ value, ¬holds 0 value) (value : α) :
    First holds value ↔ First (fun i => holds (i + 1)) value := by
  constructor
  · intro first
    obtain ⟨i, held, earlier⟩ := first
    cases i with
    | zero => exact absurd held (none value)
    | succ i =>
        refine ⟨i, held, ?_⟩
        intro k lt
        exact earlier (k + 1) (Nat.succ_lt_succ lt)
  · intro first
    obtain ⟨i, held, earlier⟩ := first
    refine ⟨i + 1, held, ?_⟩
    intro k lt
    cases k with
    | zero => exact none
    | succ k => exact earlier k (Nat.lt_of_succ_lt_succ lt)

theorem beginsWord_cons {c : Char} {text : List Char} :
    BeginsWord (c :: text) ↔ isWordChar c = true := by
  constructor
  · intro begins
    obtain ⟨first, rest, same, word⟩ := begins
    obtain ⟨rfl, rfl⟩ := List.cons.inj same
    exact word
  · intro word
    exact ⟨c, text, rfl, word⟩

theorem wordStarts_congr {previous previous' : Option Char}
    (same : boundary previous = boundary previous') (text : List Char) :
    wordStarts previous text = wordStarts previous' text := by
  cases text with
  | nil => rfl
  | cons c text => simp only [wordStarts, same]

theorem mem_wordStarts {previous : Option Char} {text start : List Char} :
    start ∈ wordStarts previous text ↔
      ∃ i, BoundaryAt previous text i ∧ BeginsWord (text.drop i) ∧ start = text.drop i := by
  induction text generalizing previous with
  | nil =>
      simp [wordStarts, BeginsWord]
  | cons c text ih =>
      have shift : (∃ i, BoundaryAt previous (c :: text) i ∧ BeginsWord ((c :: text).drop i) ∧
          start = (c :: text).drop i) ↔
          (boundary previous = true ∧ isWordChar c = true ∧ start = c :: text) ∨
            start ∈ wordStarts (some c) text := by
        rw [ih]
        constructor
        · intro found
          obtain ⟨i, bound, begins, rfl⟩ := found
          cases i with
          | zero => exact Or.inl ⟨bound, beginsWord_cons.mp begins, rfl⟩
          | succ i => exact Or.inr ⟨i, (boundaryAt_succ ..).mp bound, begins, rfl⟩
        · intro found
          rcases found with ⟨bound, word, rfl⟩ | ⟨i, bound, begins, rfl⟩
          · exact ⟨0, bound, beginsWord_cons.mpr word, rfl⟩
          · exact ⟨i + 1, (boundaryAt_succ ..).mpr bound, begins, rfl⟩
      rw [shift]
      simp only [wordStarts]
      split
      · rename_i starts
        rw [Bool.and_eq_true] at starts
        simp only [List.mem_cons, starts, true_and]
      · rename_i starts
        rw [Bool.and_eq_true] at starts
        constructor
        · exact Or.inr
        · intro found
          rcases found with ⟨bound, word, -⟩ | found
          · exact absurd ⟨word, bound⟩ starts
          · exact found

/-- The word starts of a rest that begins behind a boundary are those of the text that lie in it. -/
theorem exists_start_iff {holds : List Char → Prop} {text : List Char} {j : ℕ}
    (bound : BoundaryAt none text j) :
    (∃ start ∈ wordStarts none (text.drop j), holds start) ↔
      ∃ k, j ≤ k ∧ BoundaryAt none text k ∧ BeginsWord (text.drop k) ∧ holds (text.drop k) := by
  simp only [mem_wordStarts, boundaryAt_drop bound, List.drop_drop]
  constructor
  · intro found
    obtain ⟨start, ⟨i, at_i, begins, rfl⟩, held⟩ := found
    exact ⟨j + i, Nat.le_add_right j i, at_i, begins, held⟩
  · intro found
    obtain ⟨k, le, at_k, begins, held⟩ := found
    obtain ⟨i, rfl⟩ := Nat.exists_eq_add_of_le le
    exact ⟨text.drop (j + i), ⟨i, at_k, begins, rfl⟩, held⟩

/-- A search over the word starts finds what stands at the first boundary with a find. -/
theorem findSome?_wordStarts {α : Type} {find : List Char → Option α}
    (begins : ∀ text value, find text = some value → BeginsWord text)
    {previous : Option Char} {text : List Char} {value : α} :
    (wordStarts previous text).findSome? find = some value ↔
      First (fun i value => BoundaryAt previous text i ∧ find (text.drop i) = some value) value := by
  induction text generalizing previous with
  | nil =>
      constructor
      · simp [wordStarts]
      · intro first
        obtain ⟨i, ⟨-, found⟩, -⟩ := first
        obtain ⟨c, rest, same, -⟩ := begins _ _ found
        simp at same
  | cons c text ih =>
      have later : (wordStarts (some c) text).findSome? find = some value ↔
          First (fun i value => BoundaryAt previous (c :: text) (i + 1) ∧
            find ((c :: text).drop (i + 1)) = some value) value := by
        rw [ih]
        apply First.congr
        intro i value
        rw [boundaryAt_succ, List.drop_succ_cons]
      by_cases here : boundary previous = true ∧ ∃ value, find (c :: text) = some value
      · obtain ⟨bound, found_value, found⟩ := here
        have word := beginsWord_cons.mp (begins _ _ found)
        refine Iff.trans ?_ (Iff.symm (First.zero ⟨bound, found⟩ ?_ value))
        · simp only [wordStarts, word, bound, Bool.and_self, if_true, List.findSome?_cons, found,
            Option.some.injEq, eq_comm]
        · intro other held
          exact Option.some.inj (held.2.symm.trans found)
      · rw [First.succ, ← later]
        · simp only [wordStarts]
          split
          · rename_i starts
            rw [Bool.and_eq_true] at starts
            have missed : find (c :: text) = none := by
              rw [Option.eq_none_iff_forall_ne_some]
              intro value found
              exact here ⟨starts.2, value, found⟩
            rw [List.findSome?_cons, missed]
          · rfl
        · intro value held
          exact here ⟨held.1, value, held.2⟩

end CqlStatements.Qualifier
