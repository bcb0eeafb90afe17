import CqlStatements.Proofs.Command.Settings
import CqlStatements.Proofs.Compilation
import CqlStatements.Proofs.RoundTrip.Descriptors

/-!
# Compiled statements printed as JSON

Where a descriptor can be read, decoded and compiled, and finished if that is asked for, the command prints
one JSON object and ends well. The object has four members, and each is decoded to what was printed: no
text is changed by its quotes, lines or letters, and no parameter changes its kind or its value. Parameters
that come from a decoded descriptor are finite, so there is a number for each of them.
-/
namespace CqlStatements

namespace Descriptor

variable {d : Descriptor} {s : Statement}

/-- A compiled statement keeps the operation of its descriptor, and its values are scalars of it. -/
theorem keeps_of_compile (compiled : d.compile = .ok s) :
    s.operation = d.operation ∧ s.parameters ⊆ d.scalars := by
  have bindings : d.whereBindings ⊆ d.scalars := by
    intro x mem
    simp only [scalars, List.mem_append, mem, true_or]
  have columns : d.columns.map ColumnValue.value ⊆ d.scalars := by
    intro x mem
    simp only [scalars, List.mem_append, mem, or_true, true_or]
  unfold compile at compiled
  cases operation : d.operation with
  | select =>
      rw [operation] at compiled
      obtain ⟨_, rfl⟩ := compileSelect_eq_ok_iff.mp compiled
      exact ⟨rfl, bindings⟩
  | insert =>
      rw [operation] at compiled
      obtain ⟨_, distinct, _, _, further, aligned, rfl⟩ := compileInsert_eq_ok_iff.mp compiled
      obtain ⟨ordered, orders, rfl⟩ := (alignRows_eq_ok_iff distinct).mp aligned
      have rows : ((ordered.map (List.map ColumnValue.value)).flatten : List Scalar) ⊆ d.scalars := by
        have same := (List.Perm.flatten_congr (orders.flip.imp fun _ _ order => order.perm)).map
          ColumnValue.value
        intro x mem
        rw [← List.map_flatten, same.mem_iff] at mem
        simp only [scalars, List.mem_append, mem, or_true, true_or]
      exact ⟨rfl, List.append_subset.mpr ⟨columns, rows⟩⟩
  | update =>
      rw [operation] at compiled
      obtain ⟨_, _, rfl⟩ := compileUpdate_eq_ok_iff.mp compiled
      exact ⟨rfl, List.append_subset.mpr ⟨columns, bindings⟩⟩
  | delete =>
      rw [operation] at compiled
      obtain ⟨_, rfl⟩ := compileDelete_eq_ok_iff.mp compiled
      exact ⟨rfl, bindings⟩
  | createIndex =>
      rw [operation] at compiled
      obtain ⟨_, _, rfl⟩ := compileCreateIndex_eq_ok_iff.mp compiled
      exact ⟨rfl, List.nil_subset _⟩

end Descriptor

namespace Command

/-- The text that a statement is finished to; there is none unless it is asked for. -/
inductive Finished (around : Surroundings) (configPath : Option String) (s : Statement) :
    Bool → Option String → Prop
  | unasked : Finished around configPath s false none
  | asked {found : Config.Found} {text : String} : around.discover configPath = .ok found →
      s.finalize found.config.allowFiltering = .ok text →
      Finished around configPath s true (some text)

section Printing

open Command.Printing

variable {around : Surroundings} {configPath : Option String} {path text : String} {bound : Bool}
  {d : Descriptor} {s : Statement} {finished : Option String}

theorem after_readDescriptor (readable : around.files.text (around.entry path) = .ok text)
    (decoded : Descriptor.ofJsonText text = .ok d) (before : String) :
    (readDescriptor around path).after before = (.ok d, before) := by
  rw [readDescriptor, readable, after_bind, after_attempt]
  simp only [Except.mapError]
  rw [after_attempt, decoded]
  rfl

theorem after_finish {found : Config.Found} (discovered : around.discover configPath = .ok found)
    (finalized : s.finalize found.config.allowFiltering = .ok text) (before : String) :
    (finish around configPath s).after before = (.ok text, before) := by
  rw [finish_of_discover discovered, finalized]
  rfl

/-- What is printed behind the question whether a statement is finished sees the text it is finished to. -/
theorem after_ifBound (done : Finished around configPath s bound finished)
    (next : Option String → Printing Unit) (before : String) :
    Printing.after (if bound then some <$> finish around configPath s >>= next
      else pure none >>= next) before = (next finished).after before := by
  cases done with
  | unasked => rfl
  | asked discovered finalized =>
      rw [if_pos rfl, map_eq_pure_bind, after_bind, after_bind, after_finish discovered finalized]
      rfl

/-- A statement that was compiled, and finished as far as asked for, is printed. -/
theorem after_compile_json (readable : around.files.text (around.entry path) = .ok text)
    (decoded : Descriptor.ofJsonText text = .ok d) (compiled : d.compile = .ok s)
    (done : Finished (around.after path) configPath s bound finished) (before : String) :
    (compile around configPath path bound .json).after before =
      (.ok (), before ++ (statementJson s finished).indented ++ "\n") := by
  rw [compile, after_bind, after_readDescriptor readable decoded]
  simp only
  rw [after_bind, after_attempt, compiled]
  simp only [Except.mapError]
  exact after_ifBound done (fun finished => printLine (statementJson s finished).indented) before

/-- The run of such a request ends well, and its output is the object in one line after the other. -/
theorem run_of_compiled {wording : Wording} {arguments : List String}
    (asked : around.request arguments = .ok ⟨configPath, .compile path bound .json⟩)
    (readable : around.files.text (around.entry path) = .ok text)
    (decoded : Descriptor.ofJsonText text = .ok d) (compiled : d.compile = .ok s)
    (done : Finished (around.after path) configPath s bound finished) :
    run wording arguments around = .ran ⟨(statementJson s finished).indented ++ "\n", none⟩ := by
  have printed := after_compile_json readable decoded compiled done ""
  rw [run_of_request asked]
  simp only [Request.perform, Outcome.ofPrinting]
  rw [← Printing.after, printed, String.empty_append]

end Printing

/-- Decodes the text that a statement was finished to, or null for none. -/
def decodeFinished : Json.Decoder (Option String)
  | _, .null => .ok none
  | room, j => some <$> Json.decodeText room j

/-- The text is one JSON object of four members, and decoding them gives a statement and what it was
finished to. -/
def Shows (output : String) (s : Statement) (finished : Option String) : Prop :=
  ∃ bound operation parameters text : Json,
    Json.Document (.ofFields
      [("bound", bound), ("operation", operation), ("parameters", parameters), ("text", text)]) output ∧
    ∀ room, decodeFinished room bound = .ok finished ∧
      Operation.decode room operation = .ok s.operation ∧
      Json.decodeList Scalar.decode (room + 1) parameters = .ok s.parameters ∧
      Json.decodeText room text = .ok s.text

section Shown

variable {s : Statement}

theorem fits_statementJson (finite : ∀ x ∈ s.parameters, x.IsFinite) (finished : Option String) :
    (statementJson s finished).fits 2 = true := by
  have parameters : Json.allFit 0 (s.parameters.map Scalar.toJson) = true := by
    rw [Json.allFit_iff, List.forall_mem_map]
    exact fun x mem => Scalar.fits_toJson (finite x mem) 0
  refine Json.fits_ofFields ?_
  cases finished <;> simp [Json.fits, parameters]

/-- A line behind a document is blank. -/
theorem document_line {j : Json} {text : String} (document : Json.Document j text) :
    Json.Document j (text ++ "\n") := by
  obtain ⟨front, cs, back, whole, blanks, spelled, behind⟩ := document
  refine ⟨front, cs, back ++ ['\n'], ?_, blanks, spelled, ?_⟩
  · rw [String.toList_append, whole, List.append_assoc]
    rfl
  · intro c mem
    rcases List.mem_append.mp mem with mem | mem
    · exact behind c mem
    · rw [List.mem_singleton.mp mem]
      rfl

theorem shows_statementJson (finite : ∀ x ∈ s.parameters, x.IsFinite) (finished : Option String) :
    Shows ((statementJson s finished).indented ++ "\n") s finished := by
  refine ⟨_, _, _, _, document_line (Json.document_indented (fits_statementJson finite finished)),
    fun room => ⟨?_, Descriptor.decodeOperation_name s.operation room, ?_,
      Json.decodeText_string room s.text⟩⟩
  · cases finished <;> rfl
  · exact Json.decodeList_map_self fun x mem => Scalar.decode_toJson (finite x mem) room

end Shown

/-- Whatever texts and values it holds, a compiled statement is printed so that nothing of it is lost. -/
theorem shows_of_compiled (wording : Wording) {arguments : List String} {around : Surroundings}
    {configPath : Option String} {path text : String} {bound : Bool} {d : Descriptor} {s : Statement}
    {finished : Option String}
    (asked : around.request arguments = .ok ⟨configPath, .compile path bound .json⟩)
    (readable : around.files.text (around.entry path) = .ok text)
    (decoded : Descriptor.ofJsonText text = .ok d) (compiled : d.compile = .ok s)
    (done : Finished (around.after path) configPath s bound finished) :
    (run wording arguments around).exitCode = 0 ∧ s.operation = d.operation ∧
      Shows (run wording arguments around).output s finished := by
  obtain ⟨operation, scalars⟩ := Descriptor.keeps_of_compile compiled
  have finite : ∀ x ∈ s.parameters, x.IsFinite := fun x mem =>
    (Descriptor.ofJsonText_ensures decoded).1 x (scalars mem)
  rw [run_of_compiled asked readable decoded compiled done]
  exact ⟨rfl, operation, shows_statementJson finite finished⟩

/-- A descriptor whose values are a string of quotes, a line's end and a control character, and one number
without and with a point. -/
def typedInText : String :=
  "\x7b\"operation\":\"update\",\"table\":\"t\",\"where_fragment\":\"where k = ? and l = ?\"," ++
    "\"columns\":[\x7b\"column\":\"é\",\"value\":\"\\\"a\\\"\\n\\u0001\"\x7d]," ++
    "\"where_bindings\":[1,1.0]\x7d"

def typedIn : Surroundings := ⟨.ofList [] typedInText, fun _ => none⟩

def typedInStatement : Statement :=
  ⟨.update, "update t set é = ? where k = ? and l = ?",
    [.string "\"a\"\n\x01", .int 1, .float ⟨0x3FF0000000000000⟩]⟩

/-- The number with a point comes back as a float, though both are bound to the same text. -/
theorem shows_of_compiled_typedIn :
    (run plainWording ["compile", "-", "-b", "--format", "json"] typedIn).exitCode = 0 ∧
      typedInStatement.operation = .update ∧
      Shows (run plainWording ["compile", "-", "-b", "--format", "json"] typedIn).output typedInStatement
        (some "update t set é = '\"a\"\n\x01' where k = 1 and l = 1") := by
  have asked : typedIn.request ["compile", "-", "-b", "--format", "json"] =
      .ok ⟨none, .compile "-" true .json⟩ :=
    Fallible.toOption_eq_some_iff.mp (by decide +kernel)
  have decoded : (Descriptor.ofJsonText typedInText).toOption = some
      { operation := .update, table := "t", whereFragment := "where k = ? and l = ?"
        columns := [⟨"é", .string "\"a\"\n\x01"⟩]
        whereBindings := [.int 1, .float ⟨0x3FF0000000000000⟩] } := by
    decide +kernel
  have discovered : ((typedIn.after "-").discover none).toOption = some ⟨{}, none⟩ := by
    decide +kernel
  have done : Finished (typedIn.after "-") none typedInStatement true
      (some "update t set é = '\"a\"\n\x01' where k = 1 and l = 1") :=
    .asked (Fallible.toOption_eq_some_iff.mp discovered)
      (Fallible.toOption_eq_some_iff.mp (by decide +kernel))
  exact shows_of_compiled plainWording asked rfl (Fallible.toOption_eq_some_iff.mp decoded) rfl done

end Command

end CqlStatements
