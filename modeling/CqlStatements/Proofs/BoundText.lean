import CqlStatements.Proofs.WrittenText

/-!
# Compiling and binding give the statement as written

A compiler prints text and collects values apart from each other, and the two meet again by counting
markers. A compiled statement, bound, is the statement as written, unless a text of the caller's brings
in markers of its own; then there are more markers than values and nothing is bound at all. No value can
land on another value's marker.
-/
namespace CqlStatements.Descriptor

variable {d : Descriptor} {s : Statement}

section Rows

def rowTemplate (d : Descriptor) (values : List Scalar) : Template :=
  Template.plain ("insert into " ++ Text.trim d.table ++ " (" ++ ", ".intercalate d.insertNames ++
      ") values (") ++
    Template.join ", " (values.map Template.hole ++
      (d.insertCollections.map Mutation.literal).map Template.plain) ++
    Template.plain (")" ++ clause d.trailing)

/-- The stray markers of one row. -/
def rowStrays (d : Descriptor) : ℕ :=
  countMarkers d.table + (d.insertNames.map countMarkers).sum +
    ((d.insertCollections.map Mutation.literal).map countMarkers).sum + countMarkers d.trailing

theorem text_rowTemplate {values : List Scalar} (h : values.length = d.columns.length) :
    (d.rowTemplate values).text = d.rowText := by
  have holes : values.map (Template.text ∘ Template.hole) =
      List.replicate d.columns.length marker.toString := by
    rw [← h, ← List.map_const']
    rfl
  have literals : (d.insertCollections.map Mutation.literal).map (Template.text ∘ Template.plain) =
      d.insertCollections.map Mutation.literal := List.map_id _
  simp only [rowTemplate, Template.text_append, Template.text_plain, Template.join,
    List.map_append, List.map_map (g := Template.text), holes, literals]
  rw [rowText_eq, ← clause_eq, insertValues]
  simp only [String.append_assoc]

theorem values_rowTemplate (values : List Scalar) : (d.rowTemplate values).values = values := by
  have holes : (values.map Template.hole).flatMap Template.values = values := by
    rw [List.flatMap_map]
    exact List.flatMap_singleton' values
  have literals : ((d.insertCollections.map Mutation.literal).map Template.plain).flatMap
      Template.values = [] := by
    simp
  simp only [rowTemplate, Template.values_append, Template.values_plain, Template.join,
    List.flatMap_append, holes, literals, List.nil_append, List.append_nil]

theorem countMarkers_rowText : countMarkers d.rowText = d.columns.length + d.rowStrays := by
  have holes : ((List.replicate d.columns.length marker.toString).map countMarkers).sum =
      d.columns.length := by
    rw [List.map_replicate, List.sum_replicate_nat]
    exact Nat.mul_one _
  rw [rowText_eq, ← clause_eq]
  simp (disch := decide) only [countMarkers_append, countMarkers_clause, countMarkers_trim,
    countMarkers_words, countMarkers_commaSeparated, insertValues, List.map_append,
    List.sum_append, holes, rowStrays]
  omega

section

variable (none : d.rowStrays = 0)
include none

theorem exact_rowFront : (Template.plain ("insert into " ++ Text.trim d.table ++ " (" ++
    ", ".intercalate d.insertNames ++ ") values (")).Exact := by
  unfold rowStrays at none
  apply Template.exact_plain
  simp (disch := decide) only [countMarkers_append, countMarkers_trim, countMarkers_words,
    countMarkers_commaSeparated]
  omega

theorem exact_cells (values : List Scalar) : ∀ t ∈ values.map Template.hole ++
    (d.insertCollections.map Mutation.literal).map Template.plain, t.Exact := by
  intro t ht
  rcases List.mem_append.mp ht with ht | ht
  · obtain ⟨v, _, rfl⟩ := List.mem_map.mp ht
    exact Template.exact_hole v
  · obtain ⟨literal, hliteral, rfl⟩ := List.mem_map.mp ht
    unfold rowStrays at none
    exact Template.exact_plain (countMarkers_of_sum (by omega) hliteral)

theorem exact_rowTemplate (values : List Scalar) : (d.rowTemplate values).Exact := by
  have back : countMarkers (")" ++ clause d.trailing) = 0 := by
    unfold rowStrays at none
    rw [countMarkers_append, countMarkers_clause, countMarkers_words ")" (by decide)]
    omega
  exact ((exact_rowFront none).append
    (Template.Exact.join (by decide) (exact_cells none values))).append (Template.exact_plain back)

theorem filled_rowTemplate (values : List Scalar) : (d.rowTemplate values).filled =
    "insert into " ++ Text.trim d.table ++ " (" ++ ", ".intercalate d.insertNames ++ ") values (" ++
      ", ".intercalate (values.map Scalar.literal ++ d.insertCollections.map Mutation.literal) ++
      ")" ++ clause d.trailing := by
  have cells := exact_cells none values
  have holes : values.map (Template.filled ∘ Template.hole) = values.map Scalar.literal :=
    List.map_congr_left fun v _ => Template.filled_hole v
  have literals : (d.insertCollections.map Mutation.literal).map
      (Template.filled ∘ Template.plain) = d.insertCollections.map Mutation.literal :=
    (List.map_congr_left fun literal _ => Template.filled_plain literal).trans (List.map_id _)
  have front := exact_rowFront none
  rw [rowTemplate, Template.filled_append (front.append (Template.Exact.join (by decide) cells)),
    Template.filled_append front, Template.filled_plain, Template.filled_plain,
    Template.filled_join (by decide) cells, List.map_append, List.map_map,
    List.map_map (g := Template.filled), holes, literals]
  simp only [String.append_assoc]

end

end Rows

section Batches

def batchTemplate : List Template → Template
  | [t] => t
  | ts => Template.plain "begin batch " ++ Template.join "; " ts ++ Template.plain "; apply batch"

theorem text_batchTemplate (ts : List Template) :
    (batchTemplate ts).text = batchText (ts.map Template.text) := by
  match ts with
  | [] => rfl
  | [t] => rfl
  | _ :: _ :: _ => rfl

theorem values_batchTemplate (ts : List Template) :
    (batchTemplate ts).values = ts.flatMap Template.values := by
  match ts with
  | [] => rfl
  | [t] => exact (List.append_nil t.values).symm
  | t :: next :: ts =>
      simp only [batchTemplate, Template.values_append, Template.values_plain, Template.join,
        List.nil_append, List.append_nil]

theorem filled_batchTemplate {ts : List Template} (exact : ∀ t ∈ ts, t.Exact) :
    (batchTemplate ts).filled = batchText (ts.map Template.filled) := by
  have front : (Template.plain "begin batch ").Exact := Template.exact_plain (by decide)
  have body := Template.Exact.join (by decide : countMarkers "; " = 0) exact
  match ts with
  | [] => rfl
  | [t] => rfl
  | t :: next :: ts =>
      rw [batchTemplate, Template.filled_append (front.append body), Template.filled_append front,
        Template.filled_plain, Template.filled_plain, Template.filled_join (by decide) exact]
      · rfl
      · simp

theorem countMarkers_batchText (texts : List String) :
    countMarkers (batchText texts) = (texts.map countMarkers).sum := by
  match texts with
  | [] => decide
  | [text] => simp [batchText]
  | text :: next :: texts =>
      rw [batchText]
      · rw [countMarkers_append, countMarkers_append, countMarkers_intercalate (by decide),
          countMarkers_words "begin batch " (by decide),
          countMarkers_words "; apply batch" (by decide), Nat.zero_add, Nat.add_zero]
      · simp

end Batches

/-- A row in column order gives each column the literal of its own value. -/
theorem writtenCells {columns : List String} {row ordered : Row} (h : InOrder columns row ordered)
    (distinct : columns.Nodup) :
    columns.map (writtenCell row) = (ordered.map ColumnValue.value).map Scalar.literal := by
  rw [← h.names] at distinct ⊢
  rw [List.map_map, List.map_map]
  apply List.map_congr_left
  intro c hc
  have found : row.find? (fun other => other.column == c.column) = some c := by
    have entry := valueOf?_of_mem ((h.perm.map ColumnValue.column).nodup_iff.mp distinct)
      (h.perm.mem_iff.mp hc)
    rw [← List.head?_filter, valueOf?_eq_some_iff.mp entry]
    rfl
  simp only [Function.comp_apply, writtenCell, found]

theorem writtenRow_eq (none : d.rowStrays = 0) (distinct : d.scalarNames.Nodup)
    {row ordered : Row} (h : InOrder d.scalarNames row ordered) :
    d.writtenRow row = (d.rowTemplate (ordered.map ColumnValue.value)).filled := by
  rw [filled_rowTemplate none]
  unfold writtenRow
  simp only [writtenCells h distinct]

theorem strayMarkers_insert (operation : d.operation = .insert) :
    d.strayMarkers = d.rows.length * d.rowStrays := by
  have each (n : ℕ) (texts : List String) : ((List.replicate n texts).flatten.map countMarkers).sum =
      n * (texts.map countMarkers).sum := by
    induction n with
    | zero => simp
    | succ n ih =>
        rw [List.replicate_succ, List.flatten_cons, List.map_append, List.sum_append, ih,
          Nat.succ_mul, Nat.add_comm]
  simp only [strayMarkers, printedTexts, operation, each, rowStrays]
  simp [Nat.add_assoc]

def orderedTemplate (d : Descriptor) (ordered : Row) : Template :=
  d.rowTemplate (ordered.map ColumnValue.value)

theorem describes_insert (operation : d.operation = .insert) (h : d.compileInsert = .ok s) :
    ∃ t, Describes t d s := by
  have distinct : d.scalarNames.Nodup := (compileInsert_eq_ok_iff.mp h).2.1
  obtain ⟨all, orders, rfl⟩ := exists_ordered_rows h
  have uniform := length_values_of_ordered orders
  rw [scalarNames, List.length_map] at uniform
  have text : (batchTemplate (all.map d.orderedTemplate)).text =
      batchText (List.replicate d.rows.length d.rowText) := by
    rw [text_batchTemplate, List.map_map]
    refine congrArg batchText ?_
    rw [List.eq_replicate_iff, List.length_map, orders.length_eq]
    refine ⟨rfl, ?_⟩
    intro text member
    obtain ⟨ordered, hordered, rfl⟩ := List.mem_map.mp member
    exact text_rowTemplate (uniform _ (List.mem_map_of_mem hordered))
  have values : (batchTemplate (all.map d.orderedTemplate)).values =
      (all.map (List.map ColumnValue.value)).flatten := by
    rw [values_batchTemplate, List.flatMap_def, List.map_map]
    refine congrArg List.flatten ?_
    exact List.map_congr_left fun ordered _ => values_rowTemplate _
  refine ⟨batchTemplate (all.map d.orderedTemplate), text.symm, values.symm, ?_, ?_⟩
  · rw [text, values, countMarkers_batchText, List.map_replicate, List.sum_replicate_nat,
      countMarkers_rowText, length_flatten_uniform uniform, List.length_map, ← orders.length_eq,
      strayMarkers_insert operation, Nat.mul_add]
  · intro none
    have clean : d.rowStrays = 0 := by
      rw [strayMarkers_insert operation] at none
      exact (Nat.mul_eq_zero.mp none).resolve_left (Nat.succ_ne_zero _)
    have exact : ∀ t ∈ all.map d.orderedTemplate, t.Exact := by
      intro t ht
      obtain ⟨ordered, _, rfl⟩ := List.mem_map.mp ht
      exact exact_rowTemplate clean _
    have rows : d.rows.map d.writtenRow = (all.map d.orderedTemplate).map Template.filled := by
      rw [List.map_map, ← List.forall₂_eq_eq_eq, List.forall₂_map_left_iff,
        List.forall₂_map_right_iff]
      exact orders.imp fun row ordered order => writtenRow_eq clean distinct order
    rw [filled_batchTemplate exact, ← rows, written, operation]

/-- Every compiled statement is described by a template. -/
theorem exists_template (h : d.compile = .ok s)
    (covered : d.operation = .select ∨ d.operation = .update ∨ d.operation = .delete →
      countMarkers d.whereFragment = d.whereBindings.length) : ∃ t, Describes t d s := by
  cases operation : d.operation with
  | select =>
      rw [compile, operation] at h
      exact describes_select operation h (covered (.inl operation))
  | insert =>
      rw [compile, operation] at h
      exact describes_insert operation h
  | update =>
      rw [compile, operation] at h
      exact describes_update operation h (covered (.inr (.inl operation)))
  | delete =>
      rw [compile, operation] at h
      exact describes_delete operation h (covered (.inr (.inr operation)))
  | createIndex =>
      rw [compile, operation] at h
      exact describes_createIndex operation h

theorem Describes.bound {t : Template} (h : Describes t d s) :
    s.bound = if d.strayMarkers = 0 then .ok d.written
      else .error (.tooFewValues (s.parameters.length + d.strayMarkers) s.parameters.length) := by
  rw [Statement.bound, h.text, h.parameters]
  split
  · rename_i none
    have exact : t.Exact := by rw [Template.Exact, h.surplus, none, Nat.add_zero]
    rw [Template.bind_eq_filled exact, h.filled none]
  · rename_i some
    have short : t.values.length < countMarkers t.text := by
      rw [h.surplus]
      omega
    rw [CqlStatements.bind, if_pos short, h.surplus]

/-- A compiled statement can be bound exactly if no text of the caller's beside the where fragment
holds a marker. It is then the statement as written; otherwise the surplus markers are told. -/
theorem bound_compile {d : Descriptor} {s : Statement} (h : d.compile = .ok s)
    (covered : d.operation = .select ∨ d.operation = .update ∨ d.operation = .delete →
      countMarkers d.whereFragment = d.whereBindings.length) :
    ((∃ text, s.bound = .ok text) ↔ ∀ text ∈ d.printedTexts, marker ∉ text.toList) ∧
      (∀ text, s.bound = .ok text → text = d.written) ∧
      ∀ e, s.bound = .error e →
        e = .tooFewValues (s.parameters.length + d.strayMarkers) s.parameters.length := by
  obtain ⟨t, described⟩ := exists_template h covered
  rw [← strayMarkers_eq_zero_iff, described.bound]
  by_cases none : d.strayMarkers = 0
  · rw [if_pos none]
    refine ⟨⟨fun _ => none, fun _ => ⟨d.written, rfl⟩⟩, ?_, ?_⟩
    · intro text same
      exact (Except.ok.inj same).symm
    · intro e failed
      cases failed
  · rw [if_neg none]
    refine ⟨⟨?_, fun clean => absurd clean none⟩, ?_, ?_⟩
    · intro ok
      obtain ⟨text, same⟩ := ok
      cases same
    · intro text same
      cases same
    · intro e failed
      exact (Except.error.inj failed).symm

/-- A change of a collection and a where clause, with values that hold markers themselves. -/
def tagging : Descriptor :=
  { operation := .update, table := "t", columns := [⟨"a", .string "who?"⟩]
    updateCollections := [⟨.set, "tags", .elements [.int 1], some .append⟩]
    whereFragment := " where id = ? and n > ? ", whereBindings := [.int 7, .null] }

def taggingStatement : Statement :=
  ⟨.update, "update t set a = ?, tags=tags+\x7b1\x7d where id = ? and n > ?",
    [.string "who?", .int 7, .null]⟩

theorem bound_compile_tagging :
    tagging.compile = .ok taggingStatement ∧
      countMarkers tagging.whereFragment = tagging.whereBindings.length ∧
      ((∃ text, taggingStatement.bound = .ok text) ↔
        ∀ text ∈ tagging.printedTexts, marker ∉ text.toList) ∧
      (∀ text, taggingStatement.bound = .ok text → text = tagging.written) ∧
      ∀ e, taggingStatement.bound = .error e →
        e = .tooFewValues (taggingStatement.parameters.length + tagging.strayMarkers)
          taggingStatement.parameters.length :=
  ⟨rfl, rfl, bound_compile rfl fun _ => rfl⟩

example : tagging.written = "update t set a = 'who?', tags=tags+\x7b1\x7d where id = 7 and n > null" :=
  rfl

end CqlStatements.Descriptor
