import CqlStatements.Command.Run
import CqlStatements.Proofs.Config.Precedence

/-!
# A failed run has printed nothing

Lines that were printed stay printed, so a task must not fail behind its first line. Steps that can fail
print nothing, and what prints cannot fail; a computation that has its steps in this order fails only with
its output as it was. The settings are shown behind a first line, but settings that were found can always
be written.
-/
namespace CqlStatements.Command

variable {α β ε : Type}

/-- What a computation comes to behind the text printed before. -/
def Printing.after (p : Printing α) (before : String) : Except Failure α × String := p.run.run before

namespace Printing

/-- Prints nothing, whether it fails or not. -/
def Silent (p : Printing α) : Prop := ∀ before, (p.after before).2 = before

/-- Cannot fail. -/
def Succeeds (p : Printing α) : Prop := ∀ before, ∃ x, (p.after before).1 = .ok x

/-- Prints nothing if it fails. -/
def FailsSilently (p : Printing α) : Prop :=
  ∀ before failure, (p.after before).1 = .error failure → (p.after before).2 = before

variable {p : Printing α} {next : α → Printing β}

theorem after_bind (p : Printing α) (next : α → Printing β) (before : String) :
    (p >>= next).after before =
      match p.after before with
      | (.ok x, output) => (next x).after output
      | (.error failure, output) => (.error failure, output) := by
  have run : (p >>= next).after before =
      match p.after before with
      | (result, output) => (ExceptT.bindCont next result).run output := rfl
  rw [run]
  rcases p.after before with ⟨_ | x, output⟩ <;> rfl

theorem after_attempt (failure : ε → Failure) (result : Except ε α) (before : String) :
    (attempt failure result).after before = (result.mapError failure, before) := by
  cases result <;> rfl

theorem Succeeds.bind (first : p.Succeeds) (others : ∀ x, (next x).Succeeds) :
    (p >>= next).Succeeds := by
  intro before
  obtain ⟨x, ok⟩ := first before
  rw [after_bind]
  rcases result : p.after before with ⟨_ | y, output⟩
  · rw [result] at ok
    cases ok
  · exact others y output

theorem Succeeds.failsSilently (succeeds : p.Succeeds) : p.FailsSilently := by
  intro before failure failed
  obtain ⟨x, ok⟩ := succeeds before
  rw [ok] at failed
  cases failed

theorem Silent.bind (first : p.Silent) (others : ∀ x, (next x).Silent) : (p >>= next).Silent := by
  intro before
  have same := first before
  rw [after_bind]
  rcases result : p.after before with ⟨_ | x, output⟩
  · rw [result] at same
    exact same
  · rw [result] at same
    exact (others x output).trans same

/-- What can fail behind silent steps only fails silently. -/
theorem Silent.bind_failsSilently (first : p.Silent) (others : ∀ x, (next x).FailsSilently) :
    (p >>= next).FailsSilently := by
  intro before failure
  have same := first before
  rw [after_bind]
  rcases result : p.after before with ⟨_ | x, output⟩
  · intro _
    rw [result] at same
    exact same
  · rw [result] at same
    intro failed
    exact (others x output failure failed).trans same

theorem silent_attempt (failure : ε → Failure) (result : Except ε α) :
    (attempt failure result).Silent := by
  intro before
  rw [after_attempt]

theorem succeeds_attempt (failure : ε → Failure) (x : α) :
    (attempt failure (.ok x : Except ε α)).Succeeds :=
  fun _ => ⟨x, rfl⟩

/-- Behind a step that succeeded its result is known to be one. -/
theorem attempt_bind_failsSilently {failure : ε → Failure} {result : Except ε α}
    (others : ∀ x, result = .ok x → (next x).FailsSilently) :
    (attempt failure result >>= next).FailsSilently := by
  cases result with
  | error cause => exact fun _ _ _ => rfl
  | ok x => exact others x rfl

theorem succeeds_printLine (line : String) : (printLine line).Succeeds := fun _ => ⟨(), rfl⟩

theorem succeeds_printLines (lines : List String) : (printLines lines).Succeeds := by
  induction lines with
  | nil => exact fun _ => ⟨(), rfl⟩
  | cons line lines ih => exact (succeeds_printLine line).bind fun _ => ih

end Printing

open Printing

section Tasks

variable (around : Surroundings) (configPath : Option String)

theorem silent_readDescriptor (path : String) : (readDescriptor around path).Silent :=
  (silent_attempt _ _).bind fun _ => silent_attempt _ _

theorem silent_finish (statement : Statement) : (finish around configPath statement).Silent :=
  (silent_attempt _ _).bind fun _ => silent_attempt _ _

theorem failsSilently_ifBound (bound : Bool) (statement : Statement)
    {next : Option String → Printing Unit} (others : ∀ finished, (next finished).FailsSilently) :
    (if bound then some <$> finish around configPath statement >>= next
      else pure none >>= next).FailsSilently := by
  cases bound with
  | false => exact Silent.bind_failsSilently (fun _ => rfl) others
  | true =>
      have silent : (some <$> finish around configPath statement).Silent :=
        (silent_finish around configPath statement).bind fun _ _ => rfl
      exact silent.bind_failsSilently others

theorem failsSilently_compile (path : String) (bound : Bool) (format : Format) :
    (compile around configPath path bound format).FailsSilently := by
  apply (silent_readDescriptor around path).bind_failsSilently
  intro descriptor
  apply (silent_attempt _ _).bind_failsSilently
  intro statement
  apply failsSilently_ifBound
  intro finished
  cases format with
  | json => exact (succeeds_printLine _).failsSilently
  | text => exact (succeeds_printLines _).failsSilently

theorem failsSilently_bindValues (query : String) (values : List String) :
    (bindValues query values).FailsSilently :=
  (silent_attempt _ _).bind_failsSilently fun _ => (succeeds_printLine _).failsSilently

theorem failsSilently_stripQuery (query : String) : (stripQuery query).FailsSilently :=
  (silent_attempt _ _).bind_failsSilently fun _ => (succeeds_printLine _).failsSilently

/-- The settings that were found are shown without failing. -/
theorem failsSilently_showSettings : (showSettings around configPath).FailsSilently := by
  refine attempt_bind_failsSilently fun found discovered => Succeeds.failsSilently ?_
  have text := Config.maskedTomlText_of_writable (Config.writable_of_discover discovered)
  rw [text]
  generalize Toml.documentText found.config.masked.entries = shown
  have nodes : (printLines ("" :: "Nodes:" :: found.config.nodes.map nodeLine)).Succeeds :=
    succeeds_printLines _
  have settings : Succeeds (do
      printLine ""
      let text ← attempt (fun fault => Failure.settings (.unusable fault)) (.ok shown)
      modify fun output => output ++ text
      printLines ("" :: "Nodes:" :: found.config.nodes.map nodeLine)) :=
    (succeeds_printLine "").bind fun _ => (succeeds_attempt _ shown).bind fun _ =>
      Succeeds.bind (fun _ => ⟨(), rfl⟩) fun _ => nodes
  cases found.path with
  | some path => exact (succeeds_printLine _).bind fun _ => settings
  | none => exact (succeeds_printLine _).bind fun _ => settings

theorem failsSilently_perform (r : Request) : (r.perform around).FailsSilently := by
  unfold Request.perform
  cases r.task with
  | compile path bound format => exact failsSilently_compile around r.configPath path bound format
  | bind query values => exact failsSilently_bindValues query values
  | strip query => exact failsSilently_stripQuery query
  | config => exact failsSilently_showSettings around r.configPath

end Tasks

/-- A command that ends with the exit code of a failure has printed nothing. -/
theorem output_of_failed (wording : Wording) (arguments : List String) (around : Surroundings)
    (failed : (run wording arguments around).exitCode ≠ 0) :
    (run wording arguments around).output = "" := by
  cases request : around.request arguments with
  | error stop =>
      rw [run_of_stopped request] at failed ⊢
      cases stop with
      | usage => rfl
      | version | help => exact absurd rfl failed
  | ok r =>
      rw [run_of_request request] at failed ⊢
      have silent := failsSilently_perform around r ""
      rw [Printing.after] at silent
      simp only [Outcome.ofPrinting] at failed ⊢
      rcases result : (r.perform around).run.run "" with ⟨failure | _, output⟩
      · rw [result] at silent
        exact silent failure rfl
      · rw [result] at failed
        exact absurd rfl failed

/-- Surroundings with nothing but settings that cannot be used. -/
def emptyPages : Surroundings :=
  ⟨⟨fun path => if path = Config.localPath then .file (.ok "page_size = 0\n") else .absent .notFound,
    .ok ""⟩, fun _ => none⟩

/-- A wording that shows all it depends on. -/
def plainWording : Wording where
  help arguments fallback := " ".intercalate arguments ++ "\nCQLG_CONFIG=" ++ fallback.getD "" ++ "\n"
  usage arguments fallback := " ".intercalate arguments ++ "\nCQLG_CONFIG=" ++ fallback.getD "" ++ "\n"

theorem output_of_failed_emptyPages :
    (run plainWording ["config"] emptyPages).exitCode ≠ 0 ∧
      (run plainWording ["config"] emptyPages).output = "" := by
  have failed : (run plainWording ["config"] emptyPages).exitCode ≠ 0 := by decide +kernel
  exact ⟨failed, output_of_failed _ _ _ failed⟩

end CqlStatements.Command
