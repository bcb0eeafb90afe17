import Mathlib.Data.List.TakeWhile

/-!
# Runs at the front of a text

Readers take the longest run of characters of one kind off a text. A run is known once all its characters
are of that kind and the one behind it, if there is any, is not; then what is left is known as well.
-/
namespace CqlStatements.Text

variable {kind : Char → Bool} {run run' rest rest' : List Char}

theorem takeWhile_run (all : ∀ c ∈ run, kind c = true) (stop : ∀ c ∈ rest.head?, kind c = false) :
    (run ++ rest).takeWhile kind = run := by
  rw [List.takeWhile_append_of_pos all]
  cases rest with
  | nil => rw [List.takeWhile_nil, List.append_nil]
  | cons c rest =>
      have other : kind c = false := stop c rfl
      rw [List.takeWhile_cons_of_neg (by simp [other]), List.append_nil]

theorem dropWhile_run (all : ∀ c ∈ run, kind c = true) (stop : ∀ c ∈ rest.head?, kind c = false) :
    (run ++ rest).dropWhile kind = rest := by
  rw [List.dropWhile_append_of_pos all]
  cases rest with
  | nil => rfl
  | cons c rest =>
      have other : kind c = false := stop c rfl
      rw [List.dropWhile_cons_of_neg (by simp [other])]

theorem head?_dropWhile_run (kind : Char → Bool) (text : List Char) :
    ∀ c ∈ (text.dropWhile kind).head?, kind c = false := by
  intro c head
  have stop := List.head?_dropWhile_not kind text
  rw [Option.mem_def.mp head] at stop
  exact stop

/-- A text is split behind its run in one way. -/
theorem run_append_inj (all : ∀ c ∈ run, kind c = true) (stop : ∀ c ∈ rest.head?, kind c = false)
    (all' : ∀ c ∈ run', kind c = true) (stop' : ∀ c ∈ rest'.head?, kind c = false)
    (same : run ++ rest = run' ++ rest') : run = run' ∧ rest = rest' := by
  have taken := congrArg (List.takeWhile kind) same
  have left := congrArg (List.dropWhile kind) same
  rw [takeWhile_run all stop, takeWhile_run all' stop'] at taken
  rw [dropWhile_run all stop, dropWhile_run all' stop'] at left
  exact ⟨taken, left⟩

end CqlStatements.Text
