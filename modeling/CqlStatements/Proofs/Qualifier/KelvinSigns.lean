import CqlStatements.Proofs.Qualifier.Interruption
import CqlStatements.Proofs.Qualifier.LetterCase
import CqlStatements.Proofs.Qualifier.QuotedText

/-!
# Names that are spelled with a Kelvin sign

Letters are compared under the lower case of Unicode, in which the Kelvin sign is a letter k; but it has three
bytes. Where a name is spelled with it, as many bytes as the table has end too early: inside a character, or
in front of another letter of the name. Either way no qualified column is found. So what a match comes to
can be told from the text, and in a query that is answered a name of this kind stays whole.
-/
namespace CqlStatements.Qualifier

/-- A lower case for every character, which may be several characters. That of an ASCII character is the
usual one, and the Kelvin sign is the only other character whose lower case is a single one of them. -/
structure LowerCasing where
  lower : Char → List Char
  lower_ascii : ∀ c, c.toNat < 128 → lower c = [c.toLower]
  lower_kelvinSign : lower kelvinSign = ['k']
  eq_kelvinSign : ∀ c d, 128 ≤ c.toNat → d.toNat < 128 → lower c = [d] → c = kelvinSign

/-- The lower case of the ASCII letters and of the Kelvin sign; all other characters stay as they are. -/
def LowerCasing.least : LowerCasing where
  lower c := if c = kelvinSign then ['k'] else [c.toLower]
  lower_ascii c ascii := by
    refine if_neg ?_
    intro kelvin
    rw [kelvin] at ascii
    exact absurd ascii (by decide)
  lower_kelvinSign := if_pos rfl
  eq_kelvinSign c d high low same := by
    by_contra other
    rw [if_neg other] at same
    have folded := toNat_toLower c
    rw [(List.cons.inj same).1] at folded
    split at folded <;> omega

/-- The letters of a name and of a text have the same lower case as far as the shorter of the two goes. -/
def LowerCasing.Agree (casing : LowerCasing) (name text : List Char) : Prop :=
  ∀ pair ∈ name.zip text, casing.lower pair.2 = casing.lower pair.1

/-- A character of the text begins behind its first `n` bytes, or the text ends there. -/
def CharBoundary (text : List Char) (n : ℕ) : Prop :=
  ∃ front back, text = front ++ back ∧ byteLength front = n

/-- The letters agree, the text has bytes enough, and cutting off those of the name ends in a character. -/
structure CutInside (casing : LowerCasing) (name text : List Char) : Prop where
  agree : casing.Agree name text
  enough : byteLength name ≤ byteLength text
  inside : ¬CharBoundary text (byteLength name)

section Letters

variable (casing : LowerCasing) {letter c : Char} {name text : List Char}

theorem toNat_lt_of_isWordChar (word : isWordChar c = true) : c.toNat < 128 := by
  rw [isWordChar_iff] at word
  omega

/-- All that the comparison takes from Unicode are the lower cases that a letter of a name can have. -/
theorem LowerCasing.sameLetter_iff (word : isWordChar letter = true) :
    sameLetter letter c = true ↔ casing.lower c = casing.lower letter := by
  have ascii := toNat_lt_of_isWordChar word
  have lower_ascii : letter.toLower.toNat < 128 := by
    rw [← isWordChar_toLower] at word
    exact toNat_lt_of_isWordChar word
  rw [casing.lower_ascii letter ascii]
  simp only [sameLetter, Bool.or_eq_true, Bool.and_eq_true, beq_iff_eq]
  by_cases plain : c.toNat < 128
  · have other : c ≠ kelvinSign := by
      intro kelvin
      rw [kelvin] at plain
      exact absurd plain (by decide)
    rw [casing.lower_ascii c plain, List.cons.injEq, and_iff_left rfl, or_iff_left]
    exact fun kelvin => other kelvin.1
  · have differ : c.toLower ≠ letter.toLower := by
      intro same
      have folded := toNat_toLower c
      rw [same] at folded
      split at folded <;> omega
    rw [or_iff_right differ]
    constructor
    · intro kelvin
      rw [kelvin.1, casing.lower_kelvinSign, kelvin.2]
    · intro same
      obtain rfl := casing.eq_kelvinSign c _ (Nat.le_of_not_lt plain) lower_ascii same
      rw [casing.lower_kelvinSign] at same
      exact ⟨rfl, (List.cons.inj same).1.symm⟩

theorem LowerCasing.agree_iff (word : ∀ c ∈ name, isWordChar c = true) :
    casing.Agree name text ↔ ∀ pair ∈ name.zip text, sameLetter pair.1 pair.2 = true :=
  forall₂_congr fun pair mem =>
    (casing.sameLetter_iff (word pair.1 (List.of_mem_zip mem).1)).symm

theorem LowerCasing.no_dot_of_agree (word : ∀ c ∈ name, isWordChar c = true)
    (length : text.length = name.length) (agree : casing.Agree name text) : '.' ∉ text := by
  rw [casing.agree_iff word] at agree
  rw [← List.map_snd_zip length.le, List.mem_map]
  intro found
  obtain ⟨pair, mem, dot⟩ := found
  have same := agree pair mem
  rw [dot, not_sameLetter_dot (word pair.1 (List.of_mem_zip mem).1)] at same
  exact absurd same (by decide)

end Letters

section Cuts

variable {text rest : List Char} {n : ℕ}

theorem byteLength_eq_zero_iff : byteLength text = 0 ↔ text = [] := by
  cases text with
  | nil => simp [byteLength]
  | cons c text =>
      have pos := c.utf8Size_pos
      simp only [byteLength, reduceCtorEq, iff_false]
      omega

/-- What is left begins at a boundary between two characters. -/
theorem dropBytes_eq_rest_iff :
    dropBytes text n = .rest rest ↔ ∃ front, text = front ++ rest ∧ byteLength front = n := by
  fun_induction dropBytes text n with
  | case1 text => simp [byteLength_eq_zero_iff]
  | case2 n =>
      refine iff_of_false (by simp) ?_
      intro cut
      obtain ⟨front, split, length⟩ := cut
      obtain ⟨rfl, -⟩ := List.append_eq_nil_iff.mp split.symm
      simp [byteLength] at length
  | case3 c text n short =>
      refine iff_of_false (by simp) ?_
      intro cut
      obtain ⟨front, split, length⟩ := cut
      cases front with
      | nil => simp [byteLength] at length
      | cons first front =>
          obtain ⟨rfl, -⟩ := List.cons.inj split
          simp only [byteLength] at length
          omega
  | case4 c text n fits ih =>
      rw [ih]
      constructor
      · intro cut
        obtain ⟨front, rfl, length⟩ := cut
        refine ⟨c :: front, rfl, ?_⟩
        rw [byteLength, length, Nat.add_sub_cancel' (Nat.le_of_not_lt fits)]
      · intro cut
        obtain ⟨front, split, length⟩ := cut
        cases front with
        | nil => simp [byteLength] at length
        | cons first front =>
            obtain ⟨rfl, rfl⟩ := List.cons.inj split
            simp only [byteLength] at length
            exact ⟨front, rfl, by omega⟩

theorem dropBytes_eq_mismatch_iff : dropBytes text n = .mismatch ↔ byteLength text < n := by
  fun_induction dropBytes text n with
  | case1 => simp
  | case2 => simp [byteLength]
  | case3 c text n short =>
      simp only [byteLength, reduceCtorEq, false_iff]
      omega
  | case4 c text n fits ih =>
      rw [ih]
      simp only [byteLength]
      omega

theorem dropBytes_eq_insideCharacter_iff_boundary :
    dropBytes text n = .insideCharacter ↔ n ≤ byteLength text ∧ ¬CharBoundary text n := by
  have boundary : CharBoundary text n ↔ ∃ rest, dropBytes text n = .rest rest := by
    simp only [CharBoundary, dropBytes_eq_rest_iff]
    exact exists_comm
  rw [← Nat.not_lt, ← dropBytes_eq_mismatch_iff, boundary]
  cases dropBytes text n <;> simp

end Cuts

section Matches

variable (casing : LowerCasing) {table text : List Char}

theorem cutInside_iff (word : ∀ c ∈ table, isWordChar c = true) :
    CutInside casing table text ↔ Severed table text := by
  rw [Severed, ← casing.agree_iff word, ← dropBytes_eq_insideCharacter_iff,
    dropBytes_eq_insideCharacter_iff_boundary]
  constructor
  · intro cut
    exact ⟨cut.agree, cut.enough, cut.inside⟩
  · intro severed
    obtain ⟨agree, enough, inside⟩ := severed
    exact ⟨agree, enough, inside⟩

/-- All letters of a qualifier are ASCII. -/
theorem not_qualified_of_kelvinSign (word : ∀ c ∈ table, isWordChar c = true)
    (kelvin : kelvinSign ∈ text.take table.length) : ¬Qualified table text := by
  intro qualified
  obtain ⟨name, c, rest, rfl, spells, -⟩ := qualified
  rw [← spells.length_eq, List.take_left] at kelvin
  exact absurd (spells.word word kelvinSign kelvin) (by decide)

end Matches

section Kept

variable {table name front back : List Char}

/-- What stands at a position inside a name is one of its characters. -/
theorem mem_of_overlap {other rest : List Char} {c : Char} {j : ℕ}
    (split : (front ++ (name ++ back)).drop j = other ++ c :: rest)
    (low : front.length ≤ j + other.length) (high : j + other.length < front.length + name.length) :
    c ∈ name := by
  obtain ⟨m, at_m⟩ := Nat.exists_eq_add_of_le low
  have within : m < name.length := by omega
  have here : (front ++ (name ++ back))[j + other.length]? = some c := by
    rw [← List.getElem?_drop, split, List.getElem?_append_right (Nat.le_refl _), Nat.sub_self]
    rfl
  rw [at_m, List.getElem?_append_right (Nat.le_add_right ..), Nat.add_sub_cancel_left,
    List.getElem?_append_left within] at here
  exact List.mem_of_getElem? here

/-- A word that goes on behind a name begins a word there. -/
theorem beginsWord_of_overlap {other rest : List Char} {j : ℕ}
    (split : (front ++ (name ++ back)).drop j = other ++ rest)
    (word : ∀ c ∈ other, isWordChar c = true) (low : j ≤ front.length + name.length)
    (high : front.length + name.length < j + other.length) : BeginsWord back := by
  obtain ⟨m, at_m⟩ := Nat.exists_eq_add_of_le low
  have within : m < other.length := by omega
  have behind : back = other.drop m ++ rest := by
    rw [← List.drop_append_of_le_length within.le, ← split, List.drop_drop, ← at_m,
      ← List.append_assoc, ← List.length_append, List.drop_left]
  rw [List.drop_eq_getElem_cons within] at behind
  exact ⟨_, _, behind, word _ (List.getElem_mem within)⟩

/-- A qualifier that meets a whole name of its length is that name, which then has no Kelvin sign. -/
theorem not_inQualifier_of_kelvinSign (word : ∀ c ∈ table, isWordChar c = true)
    (length : name.length = table.length) (no_dot : '.' ∉ name) (kelvin : kelvinSign ∈ name)
    (ends : ¬BeginsWord back) {k : ℕ} (low : front.length ≤ k)
    (high : k ≤ front.length + name.length) :
    ¬InQualifier table none (front ++ (name ++ back)) k := by
  intro inside
  obtain ⟨j, le, le', -, other, c, rest, split, spells, -⟩ := inside
  have same_length := spells.length_eq
  rcases Nat.lt_trichotomy j front.length with before | rfl | behind
  · -- the dot behind the other name would stand in this one
    exact no_dot (mem_of_overlap split (by omega) (by omega))
  · rw [List.drop_left] at split
    obtain ⟨rfl, -⟩ := List.append_inj split (length.trans same_length.symm)
    exact absurd (spells.word word kelvinSign kelvin) (by decide)
  · exact ends (beginsWord_of_overlap split (spells.word word) (le.trans high) (by omega))

/-- Such a name comes out of the stripper as it stood, with the character behind it. -/
theorem kept_of_kelvinSign {query result full : List Char} (answer : stripChars query = .ok result)
    (found : findTableName? query = some full) (split : query = front ++ (name ++ back))
    (ends : ¬BeginsWord back) (length : name.length = (lastPart full).length) (no_dot : '.' ∉ name)
    (kelvin : kelvinSign ∈ name) :
    ∃ front' back', front'.Sublist front ∧ back'.Sublist back ∧ back'.head? = back.head? ∧
      result = front' ++ (name ++ back') := by
  obtain ⟨keep, positions, rfl⟩ := exists_keepAt_of_stripChars answer
  have word := isWordChar_of_findTableName? found
  have kept : ∀ k ≤ name.length, keep (k + front.length) = true := by
    intro k le
    rw [positions, deletedAt_iff found, split]
    intro gone
    refine not_inQualifier_of_kelvinSign word length no_dot kelvin ends ?_ ?_ gone.2.2
    · exact Nat.le_add_left ..
    · omega
  have name_kept : keepAt (fun k => keep (k + front.length)) name = name :=
    keepAt_eq_self_iff.mpr fun k lt => kept k lt.le
  refine ⟨keepAt keep front, keepAt (fun k => keep (k + name.length + front.length)) back,
    keepAt_sublist .., keepAt_sublist .., ?_, ?_⟩
  · cases back with
    | nil => rfl
    | cons d back =>
        rw [keepAt_cons, Nat.zero_add, if_pos (kept _ (Nat.le_refl _))]
        rfl
  · rw [split, keepAt_append, keepAt_append, name_kept]

end Kept

/-- A match succeeds, has no answer or misses just as the text says. It never succeeds over a Kelvin sign,
and where a query is answered a table name that is spelled with one is kept with what stands behind it. -/
theorem qualifiedColumn_exact (casing : LowerCasing) {table : List Char}
    (word : ∀ c ∈ table, isWordChar c = true) :
    (∀ text rest, qualifiedColumn table text = .rest rest ↔
        ∃ name c tail, text = name ++ '.' :: c :: tail ∧ Spells table name ∧ isWordChar c = true ∧
          rest = c :: tail) ∧
      (∀ text, qualifiedColumn table text = .insideCharacter ↔ CutInside casing table text) ∧
      (∀ text, CutInside casing table text → kelvinSign ∈ text.take table.length) ∧
      (∀ text, qualifiedColumn table text = .mismatch ↔
        ¬Qualified table text ∧ ¬CutInside casing table text) ∧
      (∀ text, kelvinSign ∈ text.take table.length →
        ∀ rest, qualifiedColumn table text ≠ .rest rest) ∧
      ∀ query result full front name back, strip query = .ok result →
        First (TableClauseAt query.toList) full → AfterLastDot full table →
        query.toList = front ++ (name ++ back) → ¬BeginsWord back → name.length = table.length →
        casing.Agree table name → kelvinSign ∈ name →
        ∃ front' back', front'.Sublist front ∧ back'.Sublist back ∧ back'.head? = back.head? ∧
          result.toList = front' ++ (name ++ back') := by
  have inside : ∀ text, qualifiedColumn table text = .insideCharacter ↔ CutInside casing table text := by
    intro text
    rw [qualifiedColumn_eq_insideCharacter_iff, cutInside_iff casing word]
  refine ⟨fun text rest => qualifiedColumn_eq_rest_iff word, inside, ?_, ?_, ?_, ?_⟩
  · intro text cut
    exact kelvinSign_mem_of_insideCharacter word ((inside text).mpr cut)
  · intro text
    rw [← exists_qualifiedColumn_iff word, ← inside]
    cases qualifiedColumn table text <;> simp
  · intro text kelvin rest found
    exact not_qualified_of_kelvinSign word kelvin ((exists_qualifiedColumn_iff word).mp ⟨rest, found⟩)
  · intro query result full front name back answer first after split ends length agree kelvin
    have found := findTableName?_eq_some_iff.mpr first
    obtain rfl := afterLastDot_iff.mp after
    have no_dot := casing.no_dot_of_agree word length agree
    exact kept_of_kelvinSign (strip_eq_ok_iff.mp answer) found split ends length no_dot kelvin

/-- Of two columns that are spelled with a Kelvin sign the first ends the cut inside the sign, the second in
front of a letter; a query with the second one keeps it. -/
theorem qualifiedColumn_exact_kkkk :
    (∀ c ∈ "kkkk".toList, isWordChar c = true) ∧
      CutInside .least "kkkk".toList "kk\u212ak.b".toList ∧
      kelvinSign ∈ ("kk\u212ak.b".toList).take 4 ∧
      ¬CutInside .least "kkkk".toList "\u212akkk.b".toList ∧
      (∀ rest, qualifiedColumn "kkkk".toList "\u212akkk.b".toList ≠ .rest rest) ∧
      strip "select * from kkkk where kkkk.a = \u212akkk.b" =
        .ok "select * from kkkk where a = \u212akkk.b" ∧
      ∃ front' back', front'.Sublist "select * from kkkk where kkkk.a = ".toList ∧
        back'.Sublist ".b".toList ∧ back'.head? = some '.' ∧
        "select * from kkkk where a = \u212akkk.b".toList = front' ++ ("\u212akkk".toList ++ back') := by
  have word : ∀ c ∈ "kkkk".toList, isWordChar c = true := List.all_eq_true.mp (by decide +kernel)
  have agree : LowerCasing.least.Agree "kkkk".toList "\u212akkk".toList :=
    (LowerCasing.least.agree_iff word).mpr (agree_iff.mp (by decide +kernel))
  obtain ⟨-, inside, kelvin, missed, unmatched, kept⟩ := qualifiedColumn_exact .least word
  have cut := (inside "kk\u212ak.b".toList).mp (by decide +kernel)
  have answer : strip "select * from kkkk where kkkk.a = \u212akkk.b" =
      .ok "select * from kkkk where a = \u212akkk.b" :=
    Fallible.toOption_eq_some_iff.mp (by decide +kernel)
  have found : findTableName? "select * from kkkk where kkkk.a = \u212akkk.b".toList =
      some "kkkk".toList := by decide +kernel
  have ends : ¬BeginsWord ".b".toList := fun begins => absurd (beginsWord_cons.mp begins) (by decide)
  refine ⟨word, cut, kelvin _ cut, ((missed _).mp (by decide +kernel)).2,
    unmatched _ (by decide +kernel), answer, ?_⟩
  exact kept _ _ _ _ _ _ answer (findTableName?_eq_some_iff.mp found)
    (afterLastDot_iff.mpr (by decide +kernel)) (by decide +kernel) ends (by decide +kernel) agree
    (by decide +kernel)

end CqlStatements.Qualifier
