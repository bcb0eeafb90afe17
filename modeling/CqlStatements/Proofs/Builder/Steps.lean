import CqlStatements.Builder
import CqlStatements.Proofs.Binding
import Mathlib.Data.List.Induction

/-!
# What steps add to a builder

Each step adds to one part of a builder, and what it adds does not depend on the builder. So a builder
is described by its steps alone: every part is what the steps add to it one after the other, except for
the limit, which is the last one given. A condition is added as a template, its text together with its
bindings, although the builder holds the two apart.
-/
namespace CqlStatements.Builder

namespace Step

def names : Step → List String
  | .columns names => names
  | _ => []

def conditions : Step → List Template
  | .condition text bindings => [⟨text, bindings⟩]
  | .equals column value => [Template.plain (column ++ " = ") ++ Template.hole value]
  | _ => []

def orders : Step → List (String × Direction)
  | .orderBy column direction => [(column, direction)]
  | _ => []

def limit? : Step → Option Nat
  | .limit count => some count
  | _ => none

/-- The insert collection of a step; none if its texts cannot be read. -/
def inserted : Step → List Mutation
  | .parsedInsert kind column value => (Mutation.parse kind column value none).toOption.toList
  | .insertCollection m => [m]
  | _ => []

/-- The update collection of a step; none if its texts cannot be read. -/
def updated : Step → List Mutation
  | .parsedUpdate kind column change value =>
      (Mutation.parse kind column value change).toOption.toList
  | .updateCollection m => [m]
  | _ => []

/-- Whether a step can be taken, by whichever builder. -/
def isPossible : Step → Bool
  | .parsedInsert kind column value => (Mutation.parse kind column value none).toOption.isSome
  | .parsedUpdate kind column change value =>
      (Mutation.parse kind column value change).toOption.isSome
  | _ => true

end Step

/-- One step adds to a builder what it brings and leaves the rest. -/
theorem after_eq (b : Builder) (step : Step) :
    b.after step =
      { table := b.table
        projection := b.projection ++ step.names
        conditions := b.conditions ++ step.conditions.map Template.text
        bindings := b.bindings ++ step.conditions.flatMap Template.values
        orders := b.orders ++ step.orders
        limit := step.limit?.or b.limit
        insertCollections := b.insertCollections ++ step.inserted
        updateCollections := b.updateCollections ++ step.updated } := by
  cases step with
  | parsedInsert kind column value =>
      simp only [after, take, Step.inserted]
      cases Mutation.parse kind column value none <;>
        simp [Step.names, Step.conditions, Step.orders, Step.limit?, Step.updated, addInsert,
          Functor.map, Except.map, Except.toOption]
  | parsedUpdate kind column change value =>
      simp only [after, take, Step.updated]
      cases Mutation.parse kind column value change <;>
        simp [Step.names, Step.conditions, Step.orders, Step.limit?, Step.inserted, addUpdate,
          Functor.map, Except.map, Except.toOption]
  | _ =>
      simp [after, take, addCondition, addInsert, addUpdate, Step.names, Step.conditions,
        Step.orders, Step.limit?, Step.inserted, Step.updated]

theorem ofSteps_concat (table : String) (steps : List Step) (step : Step) :
    ofSteps table (steps ++ [step]) = (ofSteps table steps).after step := by
  simp only [ofSteps, List.foldl_append, List.foldl_cons, List.foldl_nil]

/-- A builder is what its steps add, each part in the order of the steps. -/
theorem ofSteps_eq (table : String) (steps : List Step) :
    ofSteps table steps =
      { table
        projection := steps.flatMap Step.names
        conditions := (steps.flatMap Step.conditions).map Template.text
        bindings := (steps.flatMap Step.conditions).flatMap Template.values
        orders := steps.flatMap Step.orders
        limit := (steps.filterMap Step.limit?).getLast?
        insertCollections := steps.flatMap Step.inserted
        updateCollections := steps.flatMap Step.updated } := by
  induction steps using List.reverseRecOn with
  | nil => rfl
  | append_singleton steps step ih =>
      have last : ((steps ++ [step]).filterMap Step.limit?).getLast? =
          step.limit?.or (steps.filterMap Step.limit?).getLast? := by
        rw [List.filterMap_append, List.getLast?_append]
        cases h : step.limit? <;> simp [h]
      rw [ofSteps_concat, after_eq, ih, last]
      simp only [List.flatMap_append, List.flatMap_singleton, List.map_append]

end CqlStatements.Builder
