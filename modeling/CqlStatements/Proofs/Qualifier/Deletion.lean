import Mathlib.Data.List.Basic
import CqlStatements.Proofs.Fallible
import CqlStatements.Proofs.Qualifier.WordStarts

/-!
# Deletion of qualifiers

The stripper goes on from the character it kept last, so a qualifier right behind another one is seen at
an old boundary. In the query itself that place is a boundary too, for a dot stands in front of it. No
boundary lies inside a qualifier, so no two of them overlap and all of them can be deleted at once, at
positions that are read off the query.
-/
namespace CqlStatements.Qualifier

/-- A qualified column stands at the position. -/
def QualifiedAt (table : List Char) (previous : Option Char) (text : List Char) (i : ℕ) : Prop :=
  BoundaryAt previous text i ∧ Qualified table (text.drop i)

instance (table : List Char) (previous : Option Char) (text : List Char) (i : ℕ) :
    Decidable (QualifiedAt table previous text i) :=
  inferInstanceAs (Decidable (_ ∧ _))

/-- The position lies in a qualifier or holds the dot behind one. -/
def InQualifier (table : List Char) (previous : Option Char) (text : List Char) (k : ℕ) : Prop :=
  ∃ i, i ≤ k ∧ k ≤ i + table.length ∧ QualifiedAt table previous text i

instance (table : List Char) (previous : Option Char) (text : List Char) (k : ℕ) :
    Decidable (InQualifier table previous text k) :=
  decidable_of_iff (∃ i, i ≤ k ∧ (k ≤ i + table.length ∧ QualifiedAt table previous text i)) Iff.rfl

/-- The characters of a text at the positions that are kept. -/
def keepAt (keep : ℕ → Bool) (text : List Char) : List Char :=
  (text.zipIdx.filter fun entry => keep entry.2).map Prod.fst

def withoutQualifiers (table : List Char) (previous : Option Char) (text : List Char) : List Char :=
  keepAt (fun k => !decide (InQualifier table previous text k)) text

theorem keepAt_cons (keep : ℕ → Bool) (c : Char) (text : List Char) :
    keepAt keep (c :: text) =
      if keep 0 then c :: keepAt (fun k => keep (k + 1)) text
      else keepAt (fun k => keep (k + 1)) text := by
  have tail : (((text.zipIdx 1).filter fun entry => keep entry.2).map Prod.fst) =
      keepAt (fun k => keep (k + 1)) text := by
    rw [List.zipIdx_succ, List.filter_map, List.map_map]
    rfl
  rw [← tail]
  simp only [keepAt, List.zipIdx_cons, List.filter_cons, Nat.zero_add]
  split <;> rfl

theorem keepAt_append (keep : ℕ → Bool) (front text : List Char) :
    keepAt keep (front ++ text) =
      keepAt keep front ++ keepAt (fun k => keep (k + front.length)) text := by
  induction front generalizing keep with
  | nil => rfl
  | cons c front ih =>
      rw [List.cons_append, keepAt_cons, keepAt_cons, ih]
      split <;> rfl

theorem keepAt_append_of_dropped {keep : ℕ → Bool} {front : List Char}
    (dropped : ∀ k < front.length, keep k = false) (text : List Char) :
    keepAt keep (front ++ text) = keepAt (fun k => keep (k + front.length)) text := by
  have gone : keepAt keep front = [] := by
    rw [keepAt, List.map_eq_nil_iff, List.filter_eq_nil_iff]
    intro entry mem
    rw [dropped entry.2 (List.snd_lt_of_mem_zipIdx mem)]
    exact Bool.false_ne_true
  rw [keepAt_append, gone, List.nil_append]

theorem keepAt_sublist (keep : ℕ → Bool) (text : List Char) : (keepAt keep text).Sublist text := by
  have kept := (List.filter_sublist (p := fun entry : Char × ℕ => keep entry.2)
    (l := text.zipIdx)).map Prod.fst
  rwa [List.zipIdx_map_fst] at kept

theorem keepAt_congr {keep keep' : ℕ → Bool} (same : ∀ k, keep k = keep' k) (text : List Char) :
    keepAt keep text = keepAt keep' text := by
  rw [funext same]

/-- One pass over a text from the left, given the character in front of it. -/
inductive Stripped (table : List Char) : Option Char → List Char → List Char → Prop
  | nil {previous} : Stripped table previous [] []
  | keep {previous c text out} :
      ¬(boundary previous = true ∧ Qualified table (c :: text)) →
      Stripped table (some c) text out → Stripped table previous (c :: text) (c :: out)
  | drop {previous text name c rest out} :
      boundary previous = true → text = name ++ '.' :: c :: rest → Spells table name →
      isWordChar c = true → Stripped table (some '.') (c :: rest) out →
      Stripped table previous text out

theorem Stripped.congr {table text out : List Char} {previous previous' : Option Char}
    (same : boundary previous = boundary previous') (stripped : Stripped table previous text out) :
    Stripped table previous' text out := by
  cases stripped with
  | nil => exact .nil
  | keep kept tail =>
      rw [same] at kept
      exact .keep kept tail
  | drop bound split spells column tail =>
      rw [same] at bound
      exact .drop bound split spells column tail

theorem Stripped.mem {table text out : List Char} {previous : Option Char} {c : Char}
    (stripped : Stripped table previous text out) (mem : c ∈ out) : c ∈ text := by
  induction stripped with
  | nil => exact mem
  | keep kept tail ih =>
      rcases List.mem_cons.mp mem with rfl | mem
      · exact List.mem_cons_self
      · exact List.mem_cons_of_mem _ (ih mem)
  | drop bound split spells column tail ih =>
      rw [split, List.mem_append, List.mem_cons]
      exact Or.inr (Or.inr (ih mem))

theorem stripped_of_stripAll {table text out : List Char} {previous : Option Char}
    (word : ∀ c ∈ table, isWordChar c = true)
    (answer : stripAll table previous text = .ok out) : Stripped table previous text out := by
  fun_induction stripAll table previous text generalizing out with
  | case1 =>
      obtain rfl := Except.ok.inj answer
      exact .nil
  | case2 previous c text bound rest found ih =>
      obtain ⟨name, column, tail, split, spells, is_word, rfl⟩ :=
        (qualifiedColumn_eq_rest_iff word).mp found
      -- the dot in front of what is left is no more a word character than what was kept last
      have same : boundary previous = boundary (some '.') := bound
      exact .drop bound split spells is_word ((ih answer).congr same)
  | case3 previous c text bound missed ih =>
      obtain ⟨tail, tail_answer, rfl⟩ := Fallible.map_eq_ok_iff.mp answer
      refine .keep ?_ (ih tail_answer)
      intro qualified
      exact not_qualified_of_mismatch word missed qualified.2
  | case4 => simp at answer
  | case5 previous c text bound ih =>
      obtain ⟨tail, tail_answer, rfl⟩ := Fallible.map_eq_ok_iff.mp answer
      refine .keep ?_ (ih tail_answer)
      intro qualified
      exact bound qualified.1

theorem boundaryAt_append (previous : Option Char) (front : List Char) (last : Char)
    (text : List Char) (i : ℕ) :
    BoundaryAt previous (front ++ last :: text) (front.length + 1 + i) ↔
      BoundaryAt (some last) text i := by
  induction front generalizing previous with
  | nil =>
      rw [List.nil_append, List.length_nil, Nat.zero_add, Nat.add_comm, boundaryAt_succ]
  | cons c front ih =>
      have shift : (c :: front).length + 1 + i = front.length + 1 + i + 1 := by
        simp only [List.length_cons]
        omega
      rw [List.cons_append, shift, boundaryAt_succ, ih]

/-- No word starts inside a word or at its end. -/
theorem not_boundaryAt_of_word {previous : Option Char} {name : List Char} {i : ℕ}
    (word : ∀ c ∈ name, isWordChar c = true) (pos : 0 < i) (le : i ≤ name.length)
    (text : List Char) : ¬BoundaryAt previous (name ++ text) i := by
  obtain ⟨k, rfl⟩ := Nat.exists_eq_succ_of_ne_zero (Nat.ne_of_gt pos)
  have lt : k < name.length := le
  have inside : (name ++ text)[k]? = some name[k] := by
    rw [List.getElem?_append_left lt, List.getElem?_eq_getElem lt]
  have is_word := word name[k] (List.getElem_mem lt)
  simp only [BoundaryAt, characterBefore, inside, boundary_some, is_word, Bool.not_true,
    Bool.false_eq_true, not_false_eq_true]

theorem inQualifier_succ {table : List Char} {previous : Option Char} {c : Char} {text : List Char}
    (kept : ¬QualifiedAt table previous (c :: text) 0) (k : ℕ) :
    InQualifier table previous (c :: text) (k + 1) ↔ InQualifier table (some c) text k := by
  constructor
  · intro inside
    obtain ⟨i, le, le', bound, qualified⟩ := inside
    cases i with
    | zero => exact absurd ⟨bound, qualified⟩ kept
    | succ i =>
        rw [boundaryAt_succ] at bound
        exact ⟨i, by omega, by omega, bound, qualified⟩
  · intro inside
    obtain ⟨i, le, le', bound, qualified⟩ := inside
    rw [← boundaryAt_succ previous] at bound
    exact ⟨i + 1, by omega, by omega, bound, qualified⟩

/-- Behind a qualifier and its dot the positions are judged as if the text began there. -/
theorem inQualifier_behind {table name : List Char} {previous : Option Char} {text : List Char}
    (word : ∀ c ∈ table, isWordChar c = true) (spells : Spells table name) (k : ℕ) :
    InQualifier table previous (name ++ '.' :: text) (k + (name.length + 1)) ↔
      InQualifier table (some '.') text k := by
  have length := spells.length_eq
  have behind : ∀ i, (name ++ '.' :: text).drop (name.length + 1 + i) = text.drop i := by
    intro i
    rw [← List.drop_drop, ← List.drop_drop, List.drop_left]
    rfl
  constructor
  · intro inside
    obtain ⟨i, le, le', bound, qualified⟩ := inside
    by_cases within : i ≤ name.length
    · have pos : 0 < i := by omega
      exact absurd bound (not_boundaryAt_of_word (spells.word word) pos within _)
    · obtain ⟨j, rfl⟩ := Nat.exists_eq_add_of_le (Nat.lt_of_not_le within)
      rw [Nat.succ_eq_add_one, boundaryAt_append] at bound
      rw [Nat.succ_eq_add_one, behind] at qualified
      exact ⟨j, by omega, by omega, bound, qualified⟩
  · intro inside
    obtain ⟨i, le, le', bound, qualified⟩ := inside
    refine ⟨name.length + 1 + i, by omega, by omega, (boundaryAt_append ..).mpr bound, ?_⟩
    rw [behind]
    exact qualified

/-- A pass from the left deletes what the positions of the text say. -/
theorem Stripped.eq_withoutQualifiers {table text out : List Char} {previous : Option Char}
    (word : ∀ c ∈ table, isWordChar c = true) (stripped : Stripped table previous text out) :
    out = withoutQualifiers table previous text := by
  induction stripped with
  | nil => rfl
  | @keep previous c text out kept tail ih =>
      have first : ¬InQualifier table previous (c :: text) 0 := by
        intro inside
        obtain ⟨i, le, -, qualified⟩ := inside
        obtain rfl := Nat.le_zero.mp le
        exact kept qualified
      rw [withoutQualifiers, keepAt_cons, decide_eq_false first, Bool.not_false, if_pos rfl, ih]
      refine congrArg (c :: ·) (keepAt_congr ?_ text)
      intro k
      rw [decide_eq_decide.mpr (inQualifier_succ kept k)]
  | @drop previous text name c rest out bound split spells column tail ih =>
      subst split
      have dot : name ++ '.' :: c :: rest = (name ++ ['.']) ++ (c :: rest) := by simp
      have length : (name ++ ['.']).length = name.length + 1 := by simp
      have here : QualifiedAt table previous (name ++ '.' :: c :: rest) 0 :=
        ⟨bound, name, c, rest, rfl, spells, column⟩
      rw [withoutQualifiers, dot, keepAt_append_of_dropped, ih, ← dot, length]
      · refine keepAt_congr ?_ (c :: rest)
        intro k
        rw [decide_eq_decide.mpr (inQualifier_behind word spells k)]
      · intro k lt
        have same := spells.length_eq
        have inside : InQualifier table previous (name ++ '.' :: c :: rest) k :=
          ⟨0, Nat.zero_le k, by omega, here⟩
        rw [← dot, decide_eq_true inside, Bool.not_true]

example : withoutQualifiers ['t'] none "at.T.t.id".toList = "at.id".toList := by decide

end CqlStatements.Qualifier
