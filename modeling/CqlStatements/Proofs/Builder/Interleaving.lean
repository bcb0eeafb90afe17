import CqlStatements.Proofs.Builder.Steps

/-!
# Steps that do not matter to a statement

A statement of a builder reads some of the builder's parts. Two rows of steps that give these parts the
same steps in the same order, however they are mixed with others, lead to the same statement or the same
error. Of the limit only the last one counts, and a step that cannot be taken counts for nothing.
-/
namespace CqlStatements.Builder

/-- The parts of a builder that steps add to. -/
inductive Part where
  | columns
  | conditions
  | order
  | limit
  | insertCollections
  | updateCollections
deriving DecidableEq, Repr

def Step.part : Step → Part
  | .columns _ => .columns
  | .condition _ _ | .equals _ _ => .conditions
  | .orderBy _ _ => .order
  | .limit _ => .limit
  | .parsedInsert _ _ _ | .insertCollection _ => .insertCollections
  | .parsedUpdate _ _ _ _ | .updateCollection _ => .updateCollections

/-- The steps that can be taken and that add to a part. -/
def given (part : Part) (steps : List Step) : List Step :=
  steps.filter fun step => step.part = part && step.isPossible

/-- Two rows of steps do not differ in a part. -/
def Agree (steps others : List Step) : Part → Prop
  | .limit => (given .limit steps).getLast? = (given .limit others).getLast?
  | part => given part steps = given part others

instance (steps others : List Step) : DecidablePred (Agree steps others) := fun part =>
  match part with
  | .limit => decEq (given .limit steps).getLast? (given .limit others).getLast?
  | .columns | .conditions | .order | .insertCollections | .updateCollections => decEq _ _

/-- What a builder can be asked for. -/
inductive Terminal where
  | select
  | boundSelect
  | insert (row : Row)
  | insertBatch (rows : List Row)
  | update (values : Row)
  | deleteRow
  | deleteColumns (columns : List String)
  | createIndex (columns : List String)
deriving DecidableEq, Repr

inductive Answer where
  | statement (s : Statement)
  | text (s : String)
deriving DecidableEq, Repr

namespace Terminal

def answer (b : Builder) : Terminal → Except Error Answer
  | select => .statement <$> b.select.compile
  | boundSelect => .text <$> b.boundSelect
  | insert row => .statement <$> (b.insert row).compile
  | insertBatch rows => do
      let d ← b.insertBatch rows
      .statement <$> d.compile
  | update values => .statement <$> (b.update values).compile
  | deleteRow => .statement <$> b.deleteRow.compile
  | deleteColumns columns => .statement <$> (b.deleteColumns columns).compile
  | createIndex columns => .statement <$> (b.createIndex columns).compile

/-- The parts that an answer depends on. -/
def reads : Terminal → List Part
  | select | boundSelect => [.columns, .conditions, .order, .limit]
  | insert _ | insertBatch _ => [.insertCollections]
  | update _ => [.conditions, .updateCollections]
  | deleteRow | deleteColumns _ => [.conditions]
  | createIndex _ => []

end Terminal

/-- Whether a step can be taken is not up to the builder. -/
theorem exists_take_error_iff {b : Builder} {step : Step} :
    (∃ e, b.take step = .error e) ↔ step.isPossible = false := by
  cases step with
  | parsedInsert kind column value =>
      simp only [take, Step.isPossible]
      cases Mutation.parse kind column value none <;> simp [Functor.map, Except.map, Except.toOption]
  | parsedUpdate kind column change value =>
      simp only [take, Step.isPossible]
      cases Mutation.parse kind column value change <;>
        simp [Functor.map, Except.map, Except.toOption]
  | _ => simp [take, Step.isPossible]

section Given

variable {steps others : List Step}

/-- What is added to one part alone is added by the steps given for it. -/
theorem flatMap_given {α : Type} {added : Step → List α} {part : Part}
    (own : ∀ step, added step ≠ [] → step.part = part ∧ step.isPossible = true)
    (steps : List Step) : (given part steps).flatMap added = steps.flatMap added := by
  induction steps with
  | nil => rfl
  | cons step steps ih =>
      rw [given] at ih
      by_cases nothing : added step = []
      · rw [given, List.filter_cons, List.flatMap_cons, nothing, List.nil_append, ← ih]
        split
        · rw [List.flatMap_cons, nothing, List.nil_append]
        · rfl
      · obtain ⟨same, possible⟩ := own step nothing
        rw [given, List.filter_cons_of_pos (by simp [same, possible]), List.flatMap_cons,
          List.flatMap_cons, ih]

theorem flatMap_eq_of_agree {α : Type} {added : Step → List α} {part : Part}
    (own : ∀ step, added step ≠ [] → step.part = part ∧ step.isPossible = true)
    (agree : given part steps = given part others) : steps.flatMap added = others.flatMap added := by
  rw [← flatMap_given own steps, ← flatMap_given own others, agree]

theorem names_of_agree (agree : Agree steps others .columns) :
    steps.flatMap Step.names = others.flatMap Step.names := by
  refine flatMap_eq_of_agree (fun step some => ?_) agree
  cases step <;> first | exact ⟨rfl, rfl⟩ | exact absurd rfl some

theorem conditions_of_agree (agree : Agree steps others .conditions) :
    steps.flatMap Step.conditions = others.flatMap Step.conditions := by
  refine flatMap_eq_of_agree (fun step some => ?_) agree
  cases step <;> first | exact ⟨rfl, rfl⟩ | exact absurd rfl some

theorem orders_of_agree (agree : Agree steps others .order) :
    steps.flatMap Step.orders = others.flatMap Step.orders := by
  refine flatMap_eq_of_agree (fun step some => ?_) agree
  cases step <;> first | exact ⟨rfl, rfl⟩ | exact absurd rfl some

theorem inserted_of_agree (agree : Agree steps others .insertCollections) :
    steps.flatMap Step.inserted = others.flatMap Step.inserted := by
  refine flatMap_eq_of_agree (fun step some => ?_) agree
  cases step with
  | parsedInsert kind column value =>
      have possible := mt Option.toList_eq_nil_iff.mpr some
      exact ⟨rfl, Option.isSome_iff_ne_none.mpr possible⟩
  | insertCollection m => exact ⟨rfl, rfl⟩
  | _ => exact absurd rfl some

theorem updated_of_agree (agree : Agree steps others .updateCollections) :
    steps.flatMap Step.updated = others.flatMap Step.updated := by
  refine flatMap_eq_of_agree (fun step some => ?_) agree
  cases step with
  | parsedUpdate kind column change value =>
      have possible := mt Option.toList_eq_nil_iff.mpr some
      exact ⟨rfl, Option.isSome_iff_ne_none.mpr possible⟩
  | updateCollection m => exact ⟨rfl, rfl⟩
  | _ => exact absurd rfl some

/-- The limit is that of the last step that gives one. -/
theorem getLast?_limits (steps : List Step) :
    (steps.filterMap Step.limit?).getLast? = (given .limit steps).getLast?.bind Step.limit? := by
  induction steps using List.reverseRecOn with
  | nil => rfl
  | append_singleton steps step ih =>
      rw [List.filterMap_append, given, List.filter_append, List.getLast?_append,
        List.getLast?_append, ih, given]
      cases step <;> rfl

theorem limit_of_agree (agree : Agree steps others .limit) :
    (steps.filterMap Step.limit?).getLast? = (others.filterMap Step.limit?).getLast? := by
  rw [getLast?_limits, getLast?_limits, show (given .limit steps).getLast? = _ from agree]

end Given

section Answers

variable {steps others : List Step} (table : String)

theorem select_of_agree (agree : ∀ part ∈ Terminal.select.reads, Agree steps others part) :
    (ofSteps table steps).select = (ofSteps table others).select := by
  simp only [Terminal.reads, List.forall_mem_cons] at agree
  obtain ⟨columns, conditions, order, limit, _⟩ := agree
  simp only [select, filtered, whereFragment, trailing, ofSteps_eq, names_of_agree columns,
    conditions_of_agree conditions, orders_of_agree order, limit_of_agree limit]

theorem insert_of_agree (agree : Agree steps others .insertCollections) (row : Row) :
    (ofSteps table steps).insert row = (ofSteps table others).insert row := by
  simp only [insert, ofSteps_eq, inserted_of_agree agree]

theorem filtered_of_agree (agree : Agree steps others .conditions) (operation : Operation) :
    (ofSteps table steps).filtered operation = (ofSteps table others).filtered operation := by
  simp only [filtered, whereFragment, ofSteps_eq, conditions_of_agree agree]

theorem answer_of_agree {t : Terminal} (agree : ∀ part ∈ t.reads, Agree steps others part) :
    t.answer (ofSteps table steps) = t.answer (ofSteps table others) := by
  cases t with
  | select => simp only [Terminal.answer, select_of_agree table agree]
  | boundSelect => simp only [Terminal.answer, boundSelect, select_of_agree table agree]
  | insert row =>
      simp only [Terminal.answer, insert_of_agree table (agree _ List.mem_cons_self)]
  | insertBatch rows =>
      have same := insert_of_agree table (agree _ List.mem_cons_self)
      have table_eq : (ofSteps table steps).table = (ofSteps table others).table := by
        simp only [ofSteps_eq]
      cases rows with
      | nil => simp only [Terminal.answer, insertBatch, table_eq]
      | cons first rest => simp only [Terminal.answer, insertBatch, same]
  | update values =>
      simp only [Terminal.reads, List.forall_mem_cons] at agree
      obtain ⟨conditions, collections, _⟩ := agree
      have same : (ofSteps table steps).update values = (ofSteps table others).update values := by
        simp only [update, filtered_of_agree table conditions]
        simp only [ofSteps_eq, updated_of_agree collections]
      simp only [Terminal.answer, same]
  | deleteRow =>
      simp only [Terminal.answer, deleteRow, filtered_of_agree table (agree _ List.mem_cons_self)]
  | deleteColumns columns =>
      simp only [Terminal.answer, deleteColumns,
        filtered_of_agree table (agree _ List.mem_cons_self)]
  | createIndex columns => simp only [Terminal.answer, createIndex, ofSteps_eq]

end Answers

theorem given_of_impossible {before after : List Step} {step : Step}
    (h : step.isPossible = false) (part : Part) :
    given part (before ++ step :: after) = given part (before ++ after) := by
  rw [given, List.filter_append, List.filter_cons_of_neg (by simp [h]), ← List.filter_append, given]

/-- An answer depends on the steps given for the parts that it reads and on nothing else, and a step
that cannot be taken is as if it had not been tried. -/
theorem answer_exact (t : Terminal) (table : String) :
    (∀ steps others, (∀ part ∈ t.reads, Agree steps others part) →
      t.answer (ofSteps table steps) = t.answer (ofSteps table others)) ∧
      ∀ before step after e, (ofSteps table before).take step = .error e →
        t.answer (ofSteps table (before ++ step :: after)) =
          t.answer (ofSteps table (before ++ after)) := by
  refine ⟨fun steps others agree => answer_of_agree table agree, ?_⟩
  intro before step after e failed
  have impossible : step.isPossible = false := exists_take_error_iff.mp ⟨e, failed⟩
  apply answer_of_agree
  intro part _
  cases part <;> simp only [Agree, given_of_impossible impossible]

/-- One select in two orders, the second among steps that belong to other statements. -/
def plainSteps : List Step :=
  [.columns ["a"], .equals "id" (.int 7), .orderBy "a" .ascending, .limit 3]

/-- A collection of a kind that there is not. -/
def unreadable : Step := .parsedInsert "bag" "tags" (.elements [])

def mixedSteps : List Step :=
  [.limit 1, .orderBy "a" .ascending, .parsedUpdate "set" "tags" (some "+") (.elements []),
    .equals "id" (.int 7), unreadable, .columns ["a"], .limit 3]

theorem answer_exact_mixed :
    (∀ part ∈ Terminal.boundSelect.reads, Agree plainSteps mixedSteps part) ∧
      Terminal.boundSelect.answer (ofSteps "t" plainSteps) =
        Terminal.boundSelect.answer (ofSteps "t" mixedSteps) ∧
      (ofSteps "t" plainSteps).take unreadable = .error (.unknownKind "bag") ∧
      Terminal.deleteRow.answer (ofSteps "t" (plainSteps ++ unreadable :: mixedSteps)) =
        Terminal.deleteRow.answer (ofSteps "t" (plainSteps ++ mixedSteps)) := by
  have agree : ∀ part ∈ Terminal.boundSelect.reads, Agree plainSteps mixedSteps part := by decide
  have failed : (ofSteps "t" plainSteps).take unreadable = .error (.unknownKind "bag") := rfl
  exact ⟨agree, (answer_exact .boundSelect "t").1 plainSteps mixedSteps agree, failed,
    (answer_exact .deleteRow "t").2 plainSteps unreadable mixedSteps _ failed⟩

end CqlStatements.Builder
