import CqlStatements.Proofs.InsertRows
import CqlStatements.Proofs.Trimming

/-!
# Names in column lists

The columns of a delete are joined and then put behind the first word like a clause, which is left out if
it is blank. What counts is therefore the joined text and not whether there are columns: a delete of one
column with a blank name is compiled like a delete of whole rows. Two columns are safe, since the comma
between them is not blank.

The columns of an insert are those of its first row and those of its collections. Only the former are
compared with each other, so a column is printed twice exactly if a collection takes a name that another
column has.
-/
namespace CqlStatements

namespace Descriptor

section Deletes

theorem clause_eq_empty_iff {text : String} : clause text = "" ↔ Text.trim text = "" := by
  rw [clause_eq]
  split
  · rename_i blank
    exact iff_of_true rfl blank
  · rename_i some
    refine iff_of_false ?_ some
    rw [String.append_eq_empty_iff]
    exact fun both => absurd both.1 (by decide)

/-- Joined names are blank only if there is one of them. -/
theorem trim_commaSeparated_eq_empty_iff {names : List String} (nonempty : names ≠ []) :
    Text.trim (commaSeparated names) = "" ↔ ∃ name, names = [name] ∧ Text.trim name = "" := by
  match names with
  | [] => exact absurd rfl nonempty
  | [name] =>
      rw [commaSeparated, String.intercalate_singleton]
      simp only [List.cons.injEq, and_true, exists_eq_left']
  | first :: second :: names =>
      refine iff_of_false ?_ (by simp)
      rw [Text.trim_eq_empty_iff]
      intro blank
      have comma : ',' ∈ (commaSeparated (first :: second :: names)).toList := by
        rw [commaSeparated, String.intercalate_cons_cons]
        simp
      exact absurd (blank ',' comma) (by decide)

/-- A delete that is limited to columns is compiled to the text of the delete of whole rows exactly if
it has one column, and its name is blank. -/
theorem delete_text_eq_iff {d : Descriptor} {s : Statement} (operation : d.operation = .delete)
    (limited : d.deleteColumns ≠ []) (compiled : d.compile = .ok s) :
    ∃ whole, { d with deleteColumns := [] }.compile = .ok whole ∧
      (s.text = whole.text ↔ ∃ name, d.deleteColumns = [name] ∧ Text.trim name = "") := by
  have run : d.compileDelete = .ok s := by
    simpa only [compile, operation] using compiled
  obtain ⟨named, rfl⟩ := compileDelete_eq_ok_iff.mp run
  have unlimited : { d with deleteColumns := [] }.compile =
      { d with deleteColumns := [] }.compileDelete := by
    simp only [compile, operation]
  refine ⟨_, unlimited.trans (compileDelete_eq_ok_iff.mpr ⟨named, rfl⟩), ?_⟩
  have none : clause (commaSeparated []) = "" := rfl
  rw [← trim_commaSeparated_eq_empty_iff limited, ← clause_eq_empty_iff, none]
  simp only [String.append_left_inj, String.append_right_inj]

/-- One column, whose name is empty. -/
def blankColumn : Descriptor :=
  { operation := .delete, table := "people", whereFragment := "where id = 1", deleteColumns := [""] }

/-- A delete that is limited to columns can turn into one of whole rows. -/
theorem delete_text_blankColumn : ¬∀ (d : Descriptor) (s whole : Statement),
    d.operation = .delete → d.deleteColumns ≠ [] → d.compile = .ok s →
      { d with deleteColumns := [] }.compile = .ok whole → s.text ≠ whole.text := by
  intro differ
  exact differ blankColumn _ _ rfl (List.cons_ne_nil "" []) rfl rfl rfl

theorem delete_text_eq_iff_blankColumn :
    blankColumn.operation = .delete ∧ blankColumn.deleteColumns ≠ [] ∧
      blankColumn.compile = .ok ⟨.delete, "delete from people where id = 1", []⟩ ∧
      ∃ whole, { blankColumn with deleteColumns := [] }.compile = .ok whole ∧
        ("delete from people where id = 1" = whole.text ↔
          ∃ name, blankColumn.deleteColumns = [name] ∧ Text.trim name = "") :=
  ⟨rfl, by decide, rfl, delete_text_eq_iff (d := blankColumn) rfl (by decide) rfl⟩

end Deletes

section Inserts

/-- The names of the collections of an insert. -/
def collectionNames (d : Descriptor) : List String := d.insertCollections.map Mutation.column

/-- An insert that compiles names no scalar column twice. It names each of its columns once exactly if
no collection has the name of another one or of a scalar column. -/
theorem nodup_insertNames_iff {d : Descriptor} {s : Statement} (operation : d.operation = .insert)
    (compiled : d.compile = .ok s) :
    (∃ back, s.text = batchText (List.replicate d.rows.length
        ("insert into " ++ Text.trim d.table ++ " (" ++ ", ".intercalate d.insertNames ++
          ") values (" ++ back))) ∧
      d.scalarNames.Nodup ∧
      (d.insertNames.Nodup ↔
        d.collectionNames.Nodup ∧ d.scalarNames.Disjoint d.collectionNames) := by
  have run : d.compileInsert = .ok s := by
    simpa only [compile, operation] using compiled
  have distinct : d.scalarNames.Nodup := (compileInsert_eq_ok_iff.mp run).2.1
  obtain ⟨ordered, -, rfl⟩ := exists_ordered_rows run
  refine ⟨⟨", ".intercalate d.insertValues ++ ")" ++ clause d.trailing, ?_⟩, distinct, ?_⟩
  · rw [rowText_eq, ← clause_eq]
    simp only [String.append_assoc]
  · rw [insertNames, List.nodup_append', and_iff_right distinct, collectionNames]

/-- A collection for the column that a scalar is given to as well. -/
def givenTwice : Descriptor :=
  { operation := .insert, table := "t"
    columns := [⟨"tags", .string "x"⟩]
    insertCollections := [⟨.set, "tags", .elements [.string "y"], none⟩] }

/-- An insert that compiles can name a column twice. -/
theorem nodup_insertNames_givenTwice : ¬∀ (d : Descriptor) (s : Statement),
    d.operation = .insert → d.compile = .ok s → d.insertNames.Nodup := by
  intro distinct
  exact absurd (distinct givenTwice _ rfl rfl) (by decide)

theorem nodup_insertNames_iff_givenTwice :
    givenTwice.operation = .insert ∧
      givenTwice.compile = .ok
        ⟨.insert, "insert into t (tags, tags) values (?, \x7b'y'\x7d)", [.string "x"]⟩ ∧
      givenTwice.scalarNames.Nodup ∧
      (givenTwice.insertNames.Nodup ↔ givenTwice.collectionNames.Nodup ∧
        givenTwice.scalarNames.Disjoint givenTwice.collectionNames) :=
  ⟨rfl, rfl, (nodup_insertNames_iff rfl rfl).2⟩

end Inserts

end Descriptor
end CqlStatements
