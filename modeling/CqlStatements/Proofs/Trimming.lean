import CqlStatements.Proofs.Compilation
import CqlStatements.Proofs.Runs

/-!
# Blanks around texts

Every text is a core with blanks around it, and a core that neither begins nor ends with a blank is the
one that trimming leaves. So blanks added around a text are not seen once it is trimmed. A compiler looks
at the table, the where fragment and the trailing text only trimmed, in its checks and errors as in what
it writes, and what stands at the ends of a statement is its own word or mark, a trimmed text or a literal.
-/
namespace CqlStatements

namespace Text

/-- Neither the first nor the last character is a blank. -/
def Trimmed (cs : List Char) : Prop :=
  (∀ c ∈ cs.head?, isBlank c = false) ∧ ∀ c ∈ cs.getLast?, isBlank c = false

/-- The second text is the first one with blanks added on either side. -/
def Padded (cs padded : List Char) : Prop :=
  ∃ front back, padded = front ++ cs ++ back ∧ (∀ c ∈ front, isBlank c = true) ∧
    ∀ c ∈ back, isBlank c = true

variable {cs core : List Char}

section Cores

/-- A core is found whatever blanks stand around it. -/
theorem Padded.trimChars_eq (padded : Padded core cs) (trimmed : Trimmed core) :
    trimChars cs = core := by
  obtain ⟨front, back, rfl, front_blank, back_blank⟩ := padded
  obtain ⟨first, last⟩ := trimmed
  have reversed : ∀ c ∈ back.reverse, isBlank c = true := by
    intro c mem
    exact back_blank c (List.mem_reverse.mp mem)
  have last_first : ∀ c ∈ core.reverse.head?, isBlank c = false := by
    rwa [List.head?_reverse]
  rw [trimChars, List.append_assoc]
  cases core with
  | nil =>
      rw [List.dropWhile_append_of_pos front_blank, List.nil_append,
        List.dropWhile_eq_nil_iff.mpr back_blank]
      rfl
  | cons c core =>
      have stop : ∀ d ∈ (c :: core ++ back).head?, isBlank d = false := first
      rw [dropWhile_run front_blank stop, List.reverse_append, dropWhile_run reversed last_first,
        List.reverse_reverse]

/-- Behind the blanks at the front stand the core and the blanks at the back. -/
theorem exists_blank_back (cs : List Char) :
    ∃ back, cs.dropWhile isBlank = trimChars cs ++ back ∧ ∀ c ∈ back, isBlank c = true := by
  refine ⟨((cs.dropWhile isBlank).reverse.takeWhile isBlank).reverse, ?_, ?_⟩
  · rw [trimChars, ← List.reverse_append, List.takeWhile_append_dropWhile, List.reverse_reverse]
  · intro c mem
    exact List.mem_takeWhile_imp (List.mem_reverse.mp mem)

theorem padded_trimChars (cs : List Char) : Padded (trimChars cs) cs := by
  obtain ⟨back, split, back_blank⟩ := exists_blank_back cs
  refine ⟨cs.takeWhile isBlank, back, ?_, fun c mem => List.mem_takeWhile_imp mem, back_blank⟩
  rw [List.append_assoc, ← split, List.takeWhile_append_dropWhile]

theorem trimmed_trimChars (cs : List Char) : Trimmed (trimChars cs) := by
  constructor
  · obtain ⟨back, split, -⟩ := exists_blank_back cs
    intro c head
    refine head?_dropWhile_run isBlank cs c ?_
    rw [split]
    exact List.mem_head?_append_of_mem_head? head
  · rw [trimChars, List.getLast?_reverse]
    exact head?_dropWhile_run isBlank _

theorem Padded.trans {outer : List Char} (padded : Padded core cs) (again : Padded cs outer) :
    Padded core outer := by
  obtain ⟨front, back, rfl, front_blank, back_blank⟩ := padded
  obtain ⟨front', back', rfl, front_blank', back_blank'⟩ := again
  refine ⟨front' ++ front, back ++ back', by simp only [List.append_assoc], ?_, ?_⟩
  · exact List.forall_mem_append.mpr ⟨front_blank', front_blank⟩
  · exact List.forall_mem_append.mpr ⟨back_blank, back_blank'⟩

/-- Blanks around a text have no part in its core. -/
theorem Padded.trim_eq {text padded : String} (blanks : Padded text.toList padded.toList) :
    trim padded = trim text := by
  have core := (padded_trimChars text.toList).trans blanks
  rw [trim, trim, core.trimChars_eq (trimmed_trimChars text.toList)]

theorem trim_of_trimmed {text : String} (trimmed : Trimmed text.toList) : trim text = text := by
  have bare : Padded text.toList text.toList := ⟨[], [], by simp, by simp, by simp⟩
  rw [trim, bare.trimChars_eq trimmed, String.ofList_toList]

theorem trimChars_eq_nil_iff : trimChars cs = [] ↔ ∀ c ∈ cs, isBlank c = true := by
  constructor
  · intro empty
    obtain ⟨front, back, split, front_blank, back_blank⟩ := padded_trimChars cs
    rw [split, empty, List.append_nil]
    exact List.forall_mem_append.mpr ⟨front_blank, back_blank⟩
  · intro blank
    have padded : Padded [] cs := ⟨cs, [], by simp, blank, by simp⟩
    exact padded.trimChars_eq ⟨by simp, by simp⟩

theorem trim_eq_empty_iff {text : String} : trim text = "" ↔ ∀ c ∈ text.toList, isBlank c = true := by
  rw [← trimChars_eq_nil_iff, ← toList_trim, String.toList_eq_nil_iff]

end Cores

section Ends

variable {text : String}

/-- The text begins with a character that is no blank. -/
def BeginsSolid (text : String) : Prop := ∃ c ∈ text.toList.head?, isBlank c = false

/-- The text ends with a character that is no blank. -/
def EndsSolid (text : String) : Prop := ∃ c ∈ text.toList.getLast?, isBlank c = false

theorem trimmed_of_solid (begins : BeginsSolid text) (ends : EndsSolid text) :
    Trimmed text.toList := by
  obtain ⟨first, head, first_solid⟩ := begins
  obtain ⟨last, behind, last_solid⟩ := ends
  constructor
  · intro c mem
    rw [Option.mem_unique mem head]
    exact first_solid
  · intro c mem
    rw [Option.mem_unique mem behind]
    exact last_solid

theorem BeginsSolid.append (begins : BeginsSolid text) (rest : String) :
    BeginsSolid (text ++ rest) := by
  obtain ⟨c, head, solid⟩ := begins
  refine ⟨c, ?_, solid⟩
  rw [String.toList_append]
  exact List.mem_head?_append_of_mem_head? head

theorem EndsSolid.append (ends : EndsSolid text) (front : String) : EndsSolid (front ++ text) := by
  obtain ⟨c, behind, solid⟩ := ends
  refine ⟨c, ?_, solid⟩
  rw [String.toList_append]
  exact List.mem_getLast?_append_of_mem_getLast? behind

theorem endsSolid_trim (nonempty : trim text ≠ "") : EndsSolid (trim text) := by
  have trimmed := (trimmed_trimChars text.toList).2
  rw [← toList_trim] at trimmed
  obtain ⟨c, behind⟩ := Option.ne_none_iff_exists'.mp
    (mt List.getLast?_eq_none_iff.mp (mt String.toList_eq_nil_iff.mp nonempty))
  exact ⟨c, behind, trimmed c behind⟩

theorem beginsSolid_of_forall (nonempty : text ≠ "") (solid : ∀ c ∈ text.toList, isBlank c = false) :
    BeginsSolid text := by
  have some_char := mt String.toList_eq_nil_iff.mp nonempty
  exact ⟨text.toList.head some_char, List.head?_eq_some_head some_char,
    solid _ (List.head_mem some_char)⟩

theorem endsSolid_of_forall (nonempty : text ≠ "") (solid : ∀ c ∈ text.toList, isBlank c = false) :
    EndsSolid text := by
  have some_char := mt String.toList_eq_nil_iff.mp nonempty
  exact ⟨text.toList.getLast some_char, List.getLast?_eq_some_getLast some_char,
    solid _ (List.getLast_mem some_char)⟩

/-- Joined texts begin like the first of them. -/
theorem beginsSolid_intercalate {separator item : String} (begins : BeginsSolid item)
    (items : List String) : BeginsSolid (separator.intercalate (item :: items)) := by
  cases items with
  | nil =>
      rw [String.intercalate_singleton]
      exact begins
  | cons next items =>
      rw [String.intercalate_cons_cons]
      exact (begins.append _).append _

/-- Joined texts end like the last of them. -/
theorem endsSolid_intercalate {separator : String} {items : List String} (nonempty : items ≠ [])
    (each : ∀ item ∈ items, EndsSolid item) : EndsSolid (separator.intercalate items) := by
  induction items with
  | nil => exact absurd rfl nonempty
  | cons item items ih =>
      rw [List.forall_mem_cons] at each
      cases items with
      | nil =>
          rw [String.intercalate_singleton]
          exact each.1
      | cons next items =>
          rw [String.intercalate_cons_cons]
          exact (ih (by simp) each.2).append _

end Ends

end Text

namespace Descriptor

variable {d : Descriptor}

section Padding

theorem clause_congr {text text' : String} (same : Text.trim text = Text.trim text') :
    clause text = clause text' := by
  rw [clause, clause, same]

/-- A compiler sees the caller's own texts only without the blanks around them. -/
theorem compile_congr {table fragment trailing : String}
    (same_table : Text.trim table = Text.trim d.table)
    (same_fragment : Text.trim fragment = Text.trim d.whereFragment)
    (same_trailing : Text.trim trailing = Text.trim d.trailing) :
    { d with table := table, whereFragment := fragment, trailing := trailing }.compile = d.compile := by
  unfold compile compileSelect compileInsert compileUpdate compileDelete compileCreateIndex insertText
    requireTable
  dsimp only
  rw [same_table, clause_congr same_fragment, clause_congr same_trailing]

end Padding

section Ends

open Text (BeginsSolid EndsSolid endsSolid_trim endsSolid_intercalate)

theorem endsSolid_clause {text : String} (ends : EndsSolid text) (behind : String) :
    EndsSolid (text ++ clause behind) := by
  rw [clause_eq]
  split
  · rw [String.append_empty]
    exact ends
  · rename_i some
    exact ((endsSolid_trim some).append " ").append text

theorem endsSolid_literal (kind : Collection.Kind) (c : Collection) : EndsSolid (c.literal kind) := by
  have brace : EndsSolid "\x7d" := ⟨'\x7d', rfl, by decide⟩
  have bracket : EndsSolid "]" := ⟨']', rfl, by decide⟩
  cases kind with
  | set => exact brace.append _
  | list => exact bracket.append _
  | map => exact brace.append _

theorem endsSolid_collectionAssignment (m : Mutation) : EndsSolid (collectionAssignment m) := by
  unfold collectionAssignment
  split
  · exact (endsSolid_literal m.kind m.value).append _
  · exact (endsSolid_literal m.kind m.value).append _

theorem endsSolid_columnAssignment (c : ColumnValue) : EndsSolid (columnAssignment c) := by
  have last : EndsSolid marker.toString := ⟨marker, rfl, by decide⟩
  exact last.append _

theorem endsSolid_assignments {columns : Row} {collections : List Mutation}
    (something : ¬(columns = [] ∧ collections = [])) :
    EndsSolid (commaSeparated
      (columns.map columnAssignment ++ collections.map collectionAssignment)) := by
  apply endsSolid_intercalate
  · rwa [ne_eq, List.append_eq_nil_iff, List.map_eq_nil_iff, List.map_eq_nil_iff]
  · rw [List.forall_mem_append, List.forall_mem_map, List.forall_mem_map]
    exact ⟨fun c _ => endsSolid_columnAssignment c, fun m _ => endsSolid_collectionAssignment m⟩

theorem endsSolid_rowText (d : Descriptor) : EndsSolid d.rowText := by
  have parenthesis : EndsSolid ")" := ⟨')', rfl, by decide⟩
  exact endsSolid_clause (parenthesis.append _) d.trailing

theorem solid_batchText {text : String} (begins : BeginsSolid text) (ends : EndsSolid text) (n : ℕ) :
    BeginsSolid (batchText (List.replicate (n + 1) text)) ∧
      EndsSolid (batchText (List.replicate (n + 1) text)) := by
  have front : BeginsSolid "begin batch " := ⟨'b', rfl, by decide⟩
  have back : EndsSolid "; apply batch" := ⟨'h', rfl, by decide⟩
  cases n with
  | zero => exact ⟨begins, ends⟩
  | succ n => exact ⟨(front.append _).append _, back.append _⟩

/-- A statement begins and ends with a character that is no blank. -/
theorem solid_compile {s : Statement} (compiled : d.compile = .ok s) :
    BeginsSolid s.text ∧ EndsSolid s.text := by
  unfold compile at compiled
  split at compiled
  · obtain ⟨named, rfl⟩ := compileSelect_eq_ok_iff.mp compiled
    have front : BeginsSolid "select " := ⟨'s', rfl, by decide⟩
    have table := (endsSolid_trim named).append
      ("select " ++ (if d.projection.isEmpty then "*" else commaSeparated d.projection) ++ " from ")
    exact ⟨((((front.append _).append _).append _).append _).append _,
      endsSolid_clause (endsSolid_clause table _) _⟩
  · obtain ⟨-, -, -, -, further, -, rfl⟩ := compileInsert_eq_ok_iff.mp compiled
    have front : BeginsSolid "insert into " := ⟨'i', rfl, by decide⟩
    have row : BeginsSolid d.rowText :=
      ((((((front.append _).append _).append _).append _).append _).append _).append _
    exact solid_batchText row (endsSolid_rowText d) further.length
  · obtain ⟨-, something, rfl⟩ := compileUpdate_eq_ok_iff.mp compiled
    have front : BeginsSolid "update " := ⟨'u', rfl, by decide⟩
    have assigned := (endsSolid_assignments something).append
      ("update " ++ Text.trim d.table ++ " set ")
    exact ⟨(((front.append _).append _).append _).append _, endsSolid_clause assigned _⟩
  · obtain ⟨named, rfl⟩ := compileDelete_eq_ok_iff.mp compiled
    have front : BeginsSolid "delete" := ⟨'d', rfl, by decide⟩
    have table := (endsSolid_trim named).append
      ("delete" ++ clause (commaSeparated d.deleteColumns) ++ " from ")
    exact ⟨(((front.append _).append _).append _).append _, endsSolid_clause table _⟩
  · obtain ⟨-, -, rfl⟩ := compileCreateIndex_eq_ok_iff.mp compiled
    have front : BeginsSolid "create index if not exists on " := ⟨'c', rfl, by decide⟩
    have parenthesis : EndsSolid ")" := ⟨')', rfl, by decide⟩
    exact ⟨(((front.append _).append _).append _).append _, parenthesis.append _⟩

end Ends

/-- Blanks around the table, the where fragment and the trailing text change neither a statement nor an
error, and no statement has blanks around it. -/
theorem compile_padded (d : Descriptor) :
    (∀ table fragment trailing : String, Text.Padded d.table.toList table.toList →
        Text.Padded d.whereFragment.toList fragment.toList →
        Text.Padded d.trailing.toList trailing.toList →
        { d with table := table, whereFragment := fragment, trailing := trailing }.compile =
          d.compile) ∧
      ∀ s, d.compile = .ok s → Text.Trimmed s.text.toList := by
  constructor
  · intro table fragment trailing table_blanks fragment_blanks trailing_blanks
    exact compile_congr table_blanks.trim_eq fragment_blanks.trim_eq trailing_blanks.trim_eq
  · intro s compiled
    obtain ⟨begins, ends⟩ := solid_compile compiled
    exact Text.trimmed_of_solid begins ends

/-- An update whose condition stands alone. -/
def spaced : Descriptor :=
  { operation := .update, table := "t", whereFragment := "where id = 1", columns := [⟨"a", .int 1⟩] }

/-- The blanks are a tab, a space, an ideographic space, a no-break space and a line feed. -/
theorem compile_padded_spaced :
    { spaced with
        table := "\t t\u3000", whereFragment := "\u00a0where id = 1", trailing := "\n" }.compile =
        .ok ⟨.update, "update t set a = ? where id = 1", [.int 1]⟩ ∧
      Text.Trimmed "update t set a = ? where id = 1".toList := by
  have compiled : spaced.compile = .ok ⟨.update, "update t set a = ? where id = 1", [.int 1]⟩ := rfl
  obtain ⟨padded, trimmed⟩ := compile_padded spaced
  have blank {cs : List Char} (all : cs.all Text.isBlank = true) : ∀ c ∈ cs, Text.isBlank c = true :=
    List.all_eq_true.mp all
  have table : Text.Padded spaced.table.toList "\t t\u3000".toList :=
    ⟨['\t', ' '], ['\u3000'], by decide, blank (by decide), blank (by decide)⟩
  have fragment : Text.Padded spaced.whereFragment.toList "\u00a0where id = 1".toList :=
    ⟨['\u00a0'], [], by decide, blank (by decide), blank (by decide)⟩
  have trailing : Text.Padded spaced.trailing.toList "\n".toList :=
    ⟨['\n'], [], by decide, blank (by decide), blank (by decide)⟩
  exact ⟨(padded _ _ _ table fragment trailing).trans compiled, trimmed _ compiled⟩

end Descriptor
end CqlStatements
