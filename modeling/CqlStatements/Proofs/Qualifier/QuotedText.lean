import CqlStatements.Proofs.Qualifier.Stripping
import CqlStatements.Proofs.Quotes.Spans

/-!
# What stripping does to quoted text

The stripper knows nothing of literals. A quote is no part of a qualifier, and behind it a word can start
as it can at the front of a text. So the deletion goes over the pieces between the quotes one by one, each
as a text of its own: no quote is lost, and what stands between two of them stays as it is unless it holds
a qualifier itself.
-/
namespace CqlStatements.Qualifier

variable {table text out : List Char} {previous : Option Char}

section Cutting

/-- A text that avoids a character ends in front of it. -/
theorem exists_of_append_eq {α : Type} {mark : α} {own rest front back : List α} (avoids : mark ∉ own)
    (same : own ++ rest = front ++ mark :: back) :
    ∃ between, front = own ++ between ∧ rest = between ++ mark :: back := by
  rcases List.append_eq_append_iff.mp same with ⟨between, inner, behind⟩ | ⟨between, inner, behind⟩
  · exact ⟨between, inner, behind⟩
  · cases between with
    | nil => exact ⟨[], by simpa using inner.symm, by simpa using behind.symm⟩
    | cons first between =>
        obtain ⟨rfl, -⟩ := List.cons.inj behind
        exact absurd (by simp [inner]) avoids

/-- A character that no name can hold parts the deletion in two. -/
theorem Stripped.cut (word : ∀ c ∈ table, isWordChar c = true) {mark : Char}
    (parting : isNameChar mark = false) {front back : List Char}
    (stripped : Stripped table previous (front ++ mark :: back) out) :
    ∃ front' back', out = front' ++ mark :: back' ∧ Stripped table previous front front' ∧
      Stripped table none back back' := by
  have no_name : ∀ c, isNameChar c = true → mark ≠ c := by
    rintro c name_char rfl
    rw [parting] at name_char
    exact absurd name_char (by decide)
  generalize whole : front ++ mark :: back = text at stripped
  induction stripped generalizing front with
  | nil => simp at whole
  | @keep previous c text out kept tail ih =>
      cases front with
      | nil =>
          obtain ⟨rfl, rfl⟩ := List.cons.inj whole
          have not_word : isWordChar mark = false := by
            rw [Bool.eq_false_iff]
            exact fun is_word => no_name mark (isNameChar_iff.mpr (.inl is_word)) rfl
          have bound : boundary (some mark) = boundary none := by
            rw [boundary_some, not_word]
            rfl
          exact ⟨[], out, rfl, .nil, tail.congr bound⟩
      | cons first front =>
          obtain ⟨rfl, rfl⟩ := List.cons.inj whole
          obtain ⟨front', back', rfl, in_front, in_back⟩ := ih rfl
          refine ⟨first :: front', back', rfl, .keep ?_ in_front, in_back⟩
          exact fun qualified => kept ⟨qualified.1, qualified.2.append (mark :: back)⟩
  | @drop previous text name c rest out bound split spells column tail ih =>
      -- the qualifier and the column behind it lie in front of the mark
      have avoids : mark ∉ name ++ ['.'] := by
        rw [List.mem_append, List.mem_singleton, not_or]
        refine ⟨fun mem => ?_, no_name '.' (by decide)⟩
        exact no_name mark (isNameChar_iff.mpr (.inl (spells.word word mark mem))) rfl
      have here : (name ++ ['.']) ++ c :: rest = front ++ mark :: back := by
        rw [whole, split]
        simp
      obtain ⟨between, rfl, behind⟩ := exists_of_append_eq avoids here
      obtain ⟨front', back', rfl, in_front, in_back⟩ := ih behind.symm
      refine ⟨front', back', rfl, ?_, in_back⟩
      cases between with
      | nil =>
          obtain ⟨rfl, -⟩ := List.cons.inj behind
          exact absurd rfl (no_name c (isNameChar_iff.mpr (.inl column)))
      | cons first between =>
          obtain ⟨rfl, -⟩ := List.cons.inj behind
          exact .drop bound (by simp) spells column in_front

/-- The deletion goes over the pieces between parting characters one by one. -/
theorem Stripped.splitChars (word : ∀ c ∈ table, isWordChar c = true) {mark : Char}
    (parting : isNameChar mark = false) (stripped : Stripped table none text out) :
    Text.splitChars mark out =
      (Text.splitChars mark text).map (withoutQualifiers table none) := by
  -- the induction is on the length, since the first piece is taken off as a whole
  induction length : text.length using Nat.strongRecOn generalizing text out with
  | _ n ih =>
      by_cases marked : mark ∈ text
      · obtain ⟨front, back, rfl, free⟩ := List.eq_append_cons_of_mem marked
        obtain ⟨front', back', rfl, in_front, in_back⟩ := stripped.cut word parting
        have free' : mark ∉ front' := mt in_front.mem free
        have shorter : back.length < n := by
          rw [← length, List.length_append, List.length_cons]
          omega
        rw [Text.splitChars_cut free, Text.splitChars_cut free', ih _ shorter in_back rfl,
          in_front.eq_withoutQualifiers word, List.map_cons]
      · have unmarked : mark ∉ out := mt stripped.mem marked
        rw [Text.splitChars_of_free marked, Text.splitChars_of_free unmarked,
          stripped.eq_withoutQualifiers word, List.map_singleton]

end Cutting

section Unchanged

theorem length_keepAt_le (keep : ℕ → Bool) (text : List Char) :
    (keepAt keep text).length ≤ text.length := by
  rw [keepAt, List.length_map]
  exact (List.length_filter_le _ _).trans_eq List.length_zipIdx

theorem keepAt_eq_self_iff {keep : ℕ → Bool} :
    keepAt keep text = text ↔ ∀ k < text.length, keep k = true := by
  induction text generalizing keep with
  | nil => simp [keepAt]
  | cons c text ih =>
      rw [keepAt_cons, List.length_cons, Nat.forall_lt_succ_left]
      split
      · rename_i kept
        rw [List.cons.injEq, and_iff_right rfl, and_iff_right kept, ih]
      · rename_i dropped
        refine iff_of_false ?_ fun all => dropped all.1
        intro same
        have shorter := length_keepAt_le (fun k => keep (k + 1)) text
        rw [same, List.length_cons] at shorter
        exact absurd shorter (Nat.not_succ_le_self _)

theorem withoutQualifiers_eq_self_iff :
    withoutQualifiers table previous text = text ↔ ∀ k, ¬QualifiedAt table previous text k := by
  simp only [withoutQualifiers, keepAt_eq_self_iff, Bool.not_eq_true', decide_eq_false_iff_not]
  constructor
  · intro kept k qualified
    have inside : k < text.length := by
      obtain ⟨-, name, c, rest, split, -⟩ := qualified
      by_contra behind
      rw [List.drop_eq_nil_of_le (Nat.le_of_not_lt behind)] at split
      simp at split
    exact kept k inside ⟨k, Nat.le_refl k, Nat.le_add_right .., qualified⟩
  · rintro none_qualified k - ⟨i, -, -, qualified⟩
    exact none_qualified i qualified

end Unchanged

/-- Cut at its quotes, an answer has the pieces of the query, stripped one by one if the query is. The
contents of a literal, at an odd place, stay as they are unless they hold a qualifier. -/
theorem strip_pieces {query result : String} (answer : strip query = .ok result) :
    ∃ name table, First (TableClauseAt query.toList) name ∧ AfterLastDot name table ∧
      (table = [] ∨ ¬QualifiedInCondition table query.toList → result = query) ∧
      (table ≠ [] → QualifiedInCondition table query.toList →
        Text.splitChars quote result.toList =
          (Text.splitChars quote query.toList).map (withoutQualifiers table none)) ∧
      (Text.splitChars quote result.toList).length =
        (Text.splitChars quote query.toList).length ∧
      ∀ i literal, (Text.splitChars quote query.toList)[2 * i + 1]? = some literal →
        ((Text.splitChars quote result.toList)[2 * i + 1]? = some literal ↔
          table = [] ∨ ¬QualifiedInCondition table query.toList ∨
            ∀ k, ¬QualifiedAt table none literal k) := by
  obtain ⟨name, found, cases⟩ := stripChars_ok (strip_eq_ok_iff.mp answer)
  have first := findTableName?_eq_some_iff.mp found
  have after := afterLastDot_iff.mpr (rfl : lastPart name = lastPart name)
  refine ⟨name, lastPart name, first, after, ?_⟩
  rcases cases with ⟨unqualified, same⟩ | ⟨nonempty, qualified, stripped⟩
  · obtain rfl : result = query := String.toList_inj.mp same
    refine ⟨fun _ => rfl, ?_, rfl, ?_⟩
    · intro nonempty qualified
      exact absurd unqualified (not_or.mpr ⟨nonempty, not_not_intro qualified⟩)
    · intro i literal at_place
      exact iff_of_true at_place (or_assoc.mp (.inl unqualified))
  · have word := isWordChar_of_findTableName? found
    have parting : isNameChar quote = false := by decide
    have pieces := stripped.splitChars word parting
    refine ⟨?_, fun _ _ => pieces, ?_, ?_⟩
    · intro unqualified
      exact absurd unqualified (not_or.mpr ⟨nonempty, not_not_intro qualified⟩)
    · rw [pieces, List.length_map]
    · intro i literal at_place
      rw [pieces, List.getElem?_map, at_place, Option.map_some, Option.some.injEq,
        withoutQualifiers_eq_self_iff, or_iff_right nonempty, or_iff_right (not_not_intro qualified)]

/-- One literal with a word that only ends like the table, and one with a qualifier. -/
def quoting : String := "update t set t.a = 'at.b' where b = 'T.c'"

theorem strip_pieces_quoting :
    strip quoting = .ok "update t set a = 'at.b' where b = 'c'" ∧
      (Text.splitChars quote quoting.toList)[1]? = some "at.b".toList ∧
      Text.splitChars quote "update t set a = 'at.b' where b = 'c'".toList =
        (Text.splitChars quote quoting.toList).map (withoutQualifiers "t".toList none) ∧
      ((Text.splitChars quote "update t set a = 'at.b' where b = 'c'".toList)[1]? =
          some "at.b".toList ↔
        "t".toList = [] ∨ ¬QualifiedInCondition "t".toList quoting.toList ∨
          ∀ k, ¬QualifiedAt "t".toList none "at.b".toList k) := by
  have answer : strip quoting = .ok "update t set a = 'at.b' where b = 'c'" :=
    Fallible.toOption_eq_some_iff.mp (by decide +kernel)
  have at_place : (Text.splitChars quote quoting.toList)[1]? = some "at.b".toList := by
    decide +kernel
  have found : findTableName? quoting.toList = some "t".toList := by decide +kernel
  obtain ⟨name, table, first, after, unchanged, pieces, -, literals⟩ := strip_pieces answer
  obtain rfl := Option.some.inj (found.symm.trans (findTableName?_eq_some_iff.mpr first))
  obtain rfl : table = "t".toList := (afterLastDot_iff.mp after).trans (by decide +kernel)
  have rewritten : ¬("t".toList = [] ∨ ¬QualifiedInCondition "t".toList quoting.toList) :=
    fun unqualified => absurd (unchanged unqualified) (by decide +kernel)
  rw [not_or, not_not] at rewritten
  exact ⟨answer, at_place, pieces rewritten.1 rewritten.2, literals 0 _ at_place⟩

/-- A literal that holds a qualifier is edited. -/
theorem strip_qualifierInLiteral :
    ¬∀ query result, strip query = .ok result →
      (Text.splitChars quote result.toList).length = (Text.splitChars quote query.toList).length ∧
        ∀ i, (Text.splitChars quote result.toList)[2 * i + 1]? =
          (Text.splitChars quote query.toList)[2 * i + 1]? := by
  intro untouched
  have answer : strip "select * from t where t.a = 't.b'" = .ok "select * from t where a = 'b'" :=
    Fallible.toOption_eq_some_iff.mp (by decide +kernel)
  exact absurd ((untouched _ _ answer).2 0) (by decide +kernel)

end CqlStatements.Qualifier
