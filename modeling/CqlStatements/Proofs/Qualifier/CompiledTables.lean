import CqlStatements.Proofs.Qualifier.Searches
import CqlStatements.Proofs.Qualifier.Stripping
import CqlStatements.Proofs.Trimming

/-!
# Tables of compiled statements

The search for a table passes every word in front of the clause that a compiler writes, as long as none
of them is itself one of the two keywords. Names such as `from_date` or `updated` only begin like one. The
name that is found ends where the table does, for a compiler writes a space or nothing behind it.
-/
namespace CqlStatements

namespace Qualifier

variable {table behind : List Char}

theorem isSpacing_of_isNameChar {c : Char} (name_char : isNameChar c = true) :
    isSpacing c = false := by
  rw [Bool.eq_false_iff]
  intro spacing
  simp only [isSpacing, Bool.or_eq_true, beq_iff_eq] at spacing
  rcases spacing with ((rfl | rfl) | rfl) | rfl <;> exact absurd name_char (by decide)

theorem isBlank_of_isWordChar {c : Char} (word : isWordChar c = true) : Text.isBlank c = false := by
  rw [isWordChar_iff] at word
  simp only [Text.isBlank, Text.blankRanges, List.any_cons, List.any_nil, Bool.or_false,
    Bool.or_eq_false_iff, Bool.and_eq_false_iff, decide_eq_false_iff_not]
  omega

/-- A search goes on behind a word that is no clause as at the front of a text. -/
theorem findTableName?_word {name : List Char} {separator : Char}
    (word : ∀ c ∈ name, isWordChar c = true) (stop : isWordChar separator = false)
    (apart : (∃ key ∈ ["from", "update"], Spells key.toList name) → isSpacing separator = false)
    (text : List Char) : findTableName? (name ++ separator :: text) = findTableName? text := by
  have bound : boundary (some separator) = boundary none := by
    rw [boundary_some, stop]
    rfl
  have missed := tableName?_word_eq_none word stop apart text
  rw [findTableName?, findSome?_word word stop missed, wordStarts_congr bound, findTableName?]

/-- A separator that is no word character is passed. -/
theorem findTableName?_cons {separator : Char} (stop : isWordChar separator = false)
    (text : List Char) : findTableName? (separator :: text) = findTableName? text := by
  have no_word : ∀ c ∈ ([] : List Char), isWordChar c = true := by simp
  refine findTableName?_word no_word stop ?_ text
  intro keyword
  obtain ⟨key, mem, spells⟩ := keyword
  have length := spells.length_eq
  exact absurd (List.eq_nil_of_length_eq_zero length.symm) (keywords_from_update.2 key mem).1

/-- A clause at the front of a text names the table behind it. -/
theorem findTableName?_clause {key : String} (mem : key ∈ ["from", "update"]) (nonempty : table ≠ [])
    (name_chars : ∀ c ∈ table, isNameChar c = true)
    (stop : ∀ c ∈ behind.head?, isNameChar c = false) :
    findTableName? (key.toList ++ ' ' :: (table ++ behind)) = some table := by
  have table_first : ∀ c ∈ (table ++ behind).head?, isSpacing c = false := by
    obtain ⟨first, rest, rfl⟩ := List.exists_cons_of_ne_nil nonempty
    intro c head
    obtain rfl := Option.some.inj head
    exact isSpacing_of_isNameChar (name_chars first List.mem_cons_self)
  have spaced : Spaced (' ' :: (table ++ behind)) (table ++ behind) :=
    ⟨[' '], rfl, by simp, by simp [isSpacing], table_first⟩
  have clause : Clause ["from", "update"] (key.toList ++ ' ' :: (table ++ behind)) (table ++ behind) :=
    ⟨key, mem, key.toList, _, rfl, rfl, spaced⟩
  obtain ⟨j, at_j, body⟩ := exists_clauseAt_iff.mpr ⟨(rfl : BoundaryAt none _ 0), clause⟩
  have named : table = (table ++ behind).takeWhile isNameChar :=
    (Text.takeWhile_run name_chars stop).symm
  rw [findTableName?_eq_some_iff]
  refine ⟨0, ⟨j, at_j, ?_, nonempty⟩, fun k lt => absurd lt (Nat.not_lt_zero k)⟩
  rw [← body]
  exact named

/-- A word that is neither of the keywords in front of a table, in any case. -/
structure PlainWord (name : String) : Prop where
  nonempty : name ≠ ""
  word : ∀ c ∈ name.toList, isWordChar c = true
  no_keyword : ∀ key ∈ ["from", "update"], ¬Spells key.toList name.toList

instance (name : String) : Decidable (PlainWord name) :=
  decidable_of_iff
    (name ≠ "" ∧ name.toList.all isWordChar = true ∧
      (["from", "update"].all fun key => !decide (Spells key.toList name.toList)) = true)
    (by
      simp only [List.all_eq_true, Bool.not_eq_true', decide_eq_false_iff_not]
      constructor
      · intro plain
        exact ⟨plain.1, plain.2.1, plain.2.2⟩
      · intro plain
        exact ⟨plain.nonempty, plain.word, plain.no_keyword⟩)

theorem PlainWord.findTableName? {name : String} (plain : PlainWord name) {separator : Char}
    (stop : isWordChar separator = false) (text : List Char) :
    findTableName? (name.toList ++ separator :: text) = Qualifier.findTableName? text := by
  refine findTableName?_word plain.word stop ?_ text
  intro keyword
  obtain ⟨key, mem, spells⟩ := keyword
  exact absurd spells (plain.no_keyword key mem)

end Qualifier

namespace Descriptor

open Qualifier (isNameChar isBlank_of_isWordChar PlainWord findTableName? findTableName?_cons
  findTableName?_clause)

variable {d : Descriptor} {names : List String}

section Columns

/-- A list of columns is passed column by column. -/
theorem findTableName?_columns (columns : ∀ name ∈ names, PlainWord name) (rest : List Char) :
    findTableName? ((commaSeparated names).toList ++ ' ' :: rest) = findTableName? rest := by
  induction names with
  | nil => exact findTableName?_cons (by decide) rest
  | cons name names ih =>
      rw [List.forall_mem_cons] at columns
      cases names with
      | nil =>
          rw [commaSeparated, String.intercalate_singleton]
          exact columns.1.findTableName? (by decide) rest
      | cons next names =>
          have split : (commaSeparated (name :: next :: names)).toList ++ ' ' :: rest =
              name.toList ++ ',' :: ' ' :: ((commaSeparated (next :: names)).toList ++ ' ' :: rest) := by
            simp [commaSeparated, String.intercalate_cons_cons]
          rw [split, columns.1.findTableName? (by decide), findTableName?_cons (by decide),
            ih columns.2]

/-- No blank stands at either end of a list of columns, so it is written as it is. -/
theorem clause_columns (columns : ∀ name ∈ names, PlainWord name) (nonempty : names ≠ []) :
    clause (commaSeparated names) = " " ++ commaSeparated names := by
  have solid : ∀ name ∈ names, ∀ c ∈ name.toList, Text.isBlank c = false :=
    fun name mem c in_name => isBlank_of_isWordChar ((columns name mem).word c in_name)
  have ends : Text.EndsSolid (commaSeparated names) :=
    Text.endsSolid_intercalate nonempty fun name mem =>
      Text.endsSolid_of_forall (columns name mem).nonempty (solid name mem)
  have begins : Text.BeginsSolid (commaSeparated names) := by
    cases names with
    | nil => exact absurd rfl nonempty
    | cons name names =>
        have first := List.mem_cons_self (a := name) (l := names)
        exact Text.beginsSolid_intercalate
          (Text.beginsSolid_of_forall (columns name first).nonempty (solid name first)) names
  have written : commaSeparated names ≠ "" := by
    intro empty
    obtain ⟨c, head, -⟩ := begins
    rw [empty] at head
    simp at head
  rw [clause_eq, Text.trim_of_trimmed (Text.trimmed_of_solid begins ends), if_neg written]

end Columns

section Statements

theorem select_chars : "select ".toList = "select".toList ++ [' '] := by decide

theorem from_chars : " from ".toList = ' ' :: ("from".toList ++ [' ']) := by decide

theorem update_chars : "update ".toList = "update".toList ++ [' '] := by decide

/-- A clause behind a table begins with a space. -/
theorem head?_clause_append (text : String) {rest : List Char}
    (stop : ∀ c ∈ rest.head?, isNameChar c = false) :
    ∀ c ∈ ((clause text).toList ++ rest).head?, isNameChar c = false := by
  rw [clause_eq]
  split
  · exact stop
  · rw [String.toList_append]
    intro c head
    obtain rfl := Option.some.inj head
    decide

theorem head?_clause (text : String) : ∀ c ∈ (clause text).toList.head?, isNameChar c = false := by
  have no_char : ∀ c ∈ ([] : List Char).head?, isNameChar c = false := by simp
  have alone := head?_clause_append text no_char
  rwa [List.append_nil] at alone

theorem findTableName?_projection (columns : ∀ name ∈ names, PlainWord name) (rest : List Char) :
    findTableName? ((if names.isEmpty then "*" else commaSeparated names).toList ++ ' ' :: rest) =
      findTableName? rest := by
  split
  · calc findTableName? ('*' :: ' ' :: rest)
        = findTableName? (' ' :: rest) := findTableName?_cons (by decide) _
      _ = findTableName? rest := findTableName?_cons (by decide) _
  · exact findTableName?_columns columns rest

theorem findTableName?_deleteColumns (columns : ∀ name ∈ names, PlainWord name) (rest : List Char) :
    findTableName? ("delete".toList ++ ((clause (commaSeparated names)).toList ++ ' ' :: rest)) =
      findTableName? rest := by
  have plain : PlainWord "delete" := by decide
  by_cases empty : names = []
  · have no_clause : clause (commaSeparated names) = "" := by
      rw [empty]
      rfl
    rw [no_clause]
    exact plain.findTableName? (by decide) rest
  · rw [clause_columns columns empty, String.toList_append]
    calc findTableName? ("delete".toList ++ ' ' :: ((commaSeparated names).toList ++ ' ' :: rest))
        = findTableName? ((commaSeparated names).toList ++ ' ' :: rest) :=
          plain.findTableName? (by decide) _
      _ = findTableName? rest := findTableName?_columns columns rest

theorem findTableName?_compileSelect {s : Statement} (compiled : d.compileSelect = .ok s)
    (columns : ∀ name ∈ d.projection, PlainWord name)
    (name_chars : ∀ c ∈ (Text.trim d.table).toList, isNameChar c = true) :
    findTableName? s.text.toList = some (Text.trim d.table).toList := by
  obtain ⟨named, rfl⟩ := compileSelect_eq_ok_iff.mp compiled
  have nonempty := mt String.toList_eq_nil_iff.mp named
  have stop := head?_clause_append d.whereFragment (head?_clause d.trailing)
  have plain : PlainWord "select" := by decide
  simp only [String.toList_append, List.append_assoc, select_chars, from_chars, List.cons_append,
    List.nil_append]
  rw [plain.findTableName? (by decide), findTableName?_projection columns,
    findTableName?_clause (by simp) nonempty name_chars stop]

theorem findTableName?_compileDelete {s : Statement} (compiled : d.compileDelete = .ok s)
    (columns : ∀ name ∈ d.deleteColumns, PlainWord name)
    (name_chars : ∀ c ∈ (Text.trim d.table).toList, isNameChar c = true) :
    findTableName? s.text.toList = some (Text.trim d.table).toList := by
  obtain ⟨named, rfl⟩ := compileDelete_eq_ok_iff.mp compiled
  have nonempty := mt String.toList_eq_nil_iff.mp named
  simp only [String.toList_append, List.append_assoc, from_chars, List.cons_append, List.nil_append]
  rw [findTableName?_deleteColumns columns,
    findTableName?_clause (by simp) nonempty name_chars (head?_clause d.whereFragment)]

theorem findTableName?_compileUpdate {s : Statement} (compiled : d.compileUpdate = .ok s)
    (name_chars : ∀ c ∈ (Text.trim d.table).toList, isNameChar c = true) :
    findTableName? s.text.toList = some (Text.trim d.table).toList := by
  obtain ⟨named, -, rfl⟩ := compileUpdate_eq_ok_iff.mp compiled
  have nonempty := mt String.toList_eq_nil_iff.mp named
  simp only [String.toList_append, List.append_assoc, update_chars, List.cons_append, List.nil_append]
  refine findTableName?_clause (by simp) nonempty name_chars ?_
  intro c head
  obtain rfl := Option.some.inj head
  decide

end Statements

/-- A select, update or delete that names nothing but plain words in front of its table. -/
def Recognisable (d : Descriptor) : Prop :=
  match d.operation with
  | .select => ∀ name ∈ d.projection, PlainWord name
  | .delete => ∀ name ∈ d.deleteColumns, PlainWord name
  | .update => True
  | .insert | .createIndex => False

/-- The stripper finds the table that a compiler wrote, whatever stands behind it. -/
theorem findTableName?_compile {s : Statement} (compiled : d.compile = .ok s)
    (recognisable : d.Recognisable)
    (name_chars : ∀ c ∈ (Text.trim d.table).toList, isNameChar c = true) :
    findTableName? s.text.toList = some (Text.trim d.table).toList ∧
      ∀ text, Qualifier.strip s.text ≠ .error (.tableNotFound text) := by
  have found : findTableName? s.text.toList = some (Text.trim d.table).toList := by
    cases operation : d.operation with
    | select =>
        simp only [compile, operation] at compiled
        simp only [Recognisable, operation] at recognisable
        exact findTableName?_compileSelect compiled recognisable name_chars
    | update =>
        simp only [compile, operation] at compiled
        exact findTableName?_compileUpdate compiled name_chars
    | delete =>
        simp only [compile, operation] at compiled
        simp only [Recognisable, operation] at recognisable
        exact findTableName?_compileDelete compiled recognisable name_chars
    | insert | createIndex => simp only [Recognisable, operation] at recognisable
  refine ⟨found, ?_⟩
  intro text missed
  rw [Qualifier.strip_eq_tableNotFound_iff, found] at missed
  exact absurd missed.1 (Option.some_ne_none _)

/-- The last of the columns is a keyword and takes the real one for its table. -/
example : findTableName? "select a, from from t".toList = some "from".toList := by decide

/-- Two columns begin like keywords, and the condition holds a clause of its own. -/
def lookalike : Descriptor :=
  { operation := .select, table := " ks.t ", projection := ["from_date", "updated"],
    whereFragment := "where t.a = 'update u'" }

theorem findTableName?_compile_lookalike :
    lookalike.compile =
        .ok ⟨.select, "select from_date, updated from ks.t where t.a = 'update u'", []⟩ ∧
      findTableName? "select from_date, updated from ks.t where t.a = 'update u'".toList =
        some "ks.t".toList := by
  have compiled : lookalike.compile =
      .ok ⟨.select, "select from_date, updated from ks.t where t.a = 'update u'", []⟩ := rfl
  have columns : lookalike.Recognisable := by
    have plain : PlainWord "from_date" ∧ PlainWord "updated" := by decide
    exact List.forall_mem_cons.mpr ⟨plain.1, List.forall_mem_singleton.mpr plain.2⟩
  have name_chars : (Text.trim lookalike.table).toList.all isNameChar = true := by decide
  exact ⟨compiled,
    (findTableName?_compile compiled columns (List.all_eq_true.mp name_chars)).1⟩

end Descriptor
end CqlStatements
