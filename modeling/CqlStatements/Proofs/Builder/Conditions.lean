import CqlStatements.Proofs.Builder.Steps

/-!
# Conditions keep their own bindings

A builder holds the texts of its conditions in one list and all bindings in another. They meet again in
the where fragment, where markers are counted from left to right. If each condition brings one binding
for each of its markers, a condition and its bindings are an exact template, and the fragment is a join
of such templates. So every binding comes back to its own condition, whatever the steps between were
and whatever the bound values contain.
-/
namespace CqlStatements.Builder

namespace Step

/-- A condition has a marker for each of its bindings, and a compared column has none. -/
def Matched : Step → Prop
  | .condition text bindings => countMarkers text = bindings.length
  | .equals column _ => marker ∉ column.toList
  | _ => True

/-- The condition of a step with its own values in place. -/
def written? : Step → Option String
  | .condition text bindings =>
      some (String.ofList (interleave (Text.splitChars marker text.toList) bindings))
  | .equals column value => some (column ++ " = " ++ value.literal)
  | _ => none

theorem exact_comparison {column : String} (h : marker ∉ column.toList) :
    (Template.plain (column ++ " = ")).Exact := by
  apply Template.exact_plain
  rw [countMarkers_append, countMarkers_eq_zero_iff.mpr h]
  decide

theorem Matched.exact {step : Step} (h : step.Matched) : ∀ t ∈ step.conditions, t.Exact := by
  intro t member
  cases step with
  | condition text bindings =>
      rw [conditions, List.mem_singleton] at member
      subst member
      exact h
  | equals column value =>
      rw [conditions, List.mem_singleton] at member
      subst member
      exact (exact_comparison h).append (Template.exact_hole value)
  | _ => cases member

theorem Matched.filled {step : Step} (h : step.Matched) :
    step.conditions.map Template.filled = step.written?.toList := by
  cases step with
  | condition text bindings =>
      simp only [conditions, written?, Template.filled, List.map_singleton, Option.toList_some,
        bindChars_eq_interleave (Nat.le_of_eq h)]
  | equals column value =>
      simp only [conditions, written?, List.map_singleton, Option.toList_some,
        Template.filled_append (exact_comparison h), Template.filled_plain, Template.filled_hole]
  | _ => rfl

end Step

/-- All conditions behind one word, or nothing. -/
def conditionsTemplate (conditions : List Template) : Template :=
  if conditions.isEmpty then Template.plain ""
  else Template.plain "where " ++ Template.join " and " conditions

/-- The where clause of a row of steps with its values in place. -/
def writtenWhere (steps : List Step) : String :=
  if steps.filterMap Step.written? = [] then ""
  else "where " ++ " and ".intercalate (steps.filterMap Step.written?)

theorem text_conditionsTemplate (table : String) (steps : List Step) :
    (conditionsTemplate (steps.flatMap Step.conditions)).text =
      (ofSteps table steps).whereFragment := by
  rw [ofSteps_eq, whereFragment, conditionsTemplate]
  cases steps.flatMap Step.conditions with
  | nil => rfl
  | cons t ts => rfl

theorem values_conditionsTemplate (table : String) (steps : List Step) :
    (conditionsTemplate (steps.flatMap Step.conditions)).values =
      (ofSteps table steps).bindings := by
  rw [ofSteps_eq, conditionsTemplate]
  cases steps.flatMap Step.conditions with
  | nil => rfl
  | cons t ts => rfl

section Matched

variable {steps : List Step} (matched : ∀ step ∈ steps, step.Matched)
include matched

theorem exact_conditions : ∀ t ∈ steps.flatMap Step.conditions, t.Exact := by
  intro t member
  obtain ⟨step, inside, own⟩ := List.mem_flatMap.mp member
  exact (matched step inside).exact t own

theorem filled_conditions :
    (steps.flatMap Step.conditions).map Template.filled = steps.filterMap Step.written? := by
  induction steps with
  | nil => rfl
  | cons step steps ih =>
      have first : step.Matched := matched step List.mem_cons_self
      have rest := ih fun other member => matched other (List.mem_cons_of_mem step member)
      rw [List.flatMap_cons, List.map_append, first.filled, rest, List.filterMap_cons]
      cases step.written? <;> rfl

theorem exact_conditionsTemplate :
    (conditionsTemplate (steps.flatMap Step.conditions)).Exact := by
  unfold conditionsTemplate
  split
  · exact Template.exact_plain (by decide)
  · exact (Template.exact_plain (by decide)).append
      (Template.Exact.join (by decide) (exact_conditions matched))

theorem filled_conditionsTemplate :
    (conditionsTemplate (steps.flatMap Step.conditions)).filled = writtenWhere steps := by
  have written := filled_conditions matched
  by_cases none : steps.flatMap Step.conditions = []
  · rw [none, List.map_nil] at written
    rw [conditionsTemplate, if_pos (List.isEmpty_iff.mpr none), writtenWhere, if_pos written.symm,
      Template.filled_plain]
  · have some : steps.filterMap Step.written? ≠ [] := by
      rw [← written]
      exact mt List.map_eq_nil_iff.mp none
    have front : (Template.plain "where ").Exact := Template.exact_plain (by decide)
    rw [conditionsTemplate, if_neg (mt List.isEmpty_iff.mp none), writtenWhere, if_neg some,
      Template.filled_append front, Template.filled_plain,
      Template.filled_join (by decide) (exact_conditions matched), written]

end Matched

/-- The descriptors of a builder that carry its conditions. -/
inductive Carries (b : Builder) : Descriptor → Prop
  | select : Carries b b.select
  | update (values : Row) : Carries b (b.update values)
  | deleteRow : Carries b b.deleteRow
  | deleteColumns (columns : List String) : Carries b (b.deleteColumns columns)

theorem Carries.whereFragment {b : Builder} {d : Descriptor} (h : b.Carries d) :
    d.whereFragment = b.whereFragment := by
  cases h <;> rfl

theorem Carries.whereBindings {b : Builder} {d : Descriptor} (h : b.Carries d) :
    d.whereBindings = b.bindings := by
  cases h <;> rfl

/-- Whatever steps are taken, the where fragment of a builder has one marker for each binding, and
bound it is the conditions in their order, each with its own values. -/
theorem bind_conditions {table : String} {steps : List Step}
    (matched : ∀ step ∈ steps, step.Matched) {d : Descriptor}
    (carried : (ofSteps table steps).Carries d) :
    countMarkers d.whereFragment = d.whereBindings.length ∧
      bind d.whereFragment d.whereBindings = .ok (writtenWhere steps) := by
  have exact := exact_conditionsTemplate matched
  rw [carried.whereFragment, carried.whereBindings, ← text_conditionsTemplate,
    ← values_conditionsTemplate, Template.bind_eq_filled exact, filled_conditionsTemplate matched]
  exact ⟨exact, rfl⟩

/-- Two conditions with other steps between them; a value of the first looks like conditions. -/
def scattered : List Step :=
  [.condition "day = ? and hour > ?" [.string "? and x = ?", .int 8], .orderBy "day" .descending,
    .parsedInsert "bag" "tags" (.elements []), .equals "kind" .null, .limit 3]

theorem bind_conditions_scattered :
    (∀ step ∈ scattered, step.Matched) ∧
      (ofSteps "t" scattered).Carries (ofSteps "t" scattered).deleteRow ∧
      countMarkers (ofSteps "t" scattered).deleteRow.whereFragment =
        (ofSteps "t" scattered).deleteRow.whereBindings.length ∧
      bind (ofSteps "t" scattered).deleteRow.whereFragment
        (ofSteps "t" scattered).deleteRow.whereBindings = .ok (writtenWhere scattered) := by
  have matched : ∀ step ∈ scattered, step.Matched := by
    simp only [scattered, List.forall_mem_cons, List.not_mem_nil, false_implies, implies_true,
      Step.Matched, and_true]
    decide
  exact ⟨matched, .deleteRow, bind_conditions matched .deleteRow⟩

example : writtenWhere scattered =
    "where day = '? and x = ?' and hour > 8 and kind = null" := by
  decide +kernel

end CqlStatements.Builder
