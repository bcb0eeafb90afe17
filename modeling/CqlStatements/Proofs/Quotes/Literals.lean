import CqlStatements.Collection
import CqlStatements.Proofs.Quotes.Spans

/-!
# The spans of a collection's literal

A literal prints the values of its collection, and the keys where a map writes them. Its spans are put
together as its text is, and emptying the strings of the collection empties those of the spans: which keys
are written depends on their kinds alone.
-/
namespace CqlStatements

open CqlStatements.Span

namespace Collection

/-- The scalars that a literal prints, in order: keys only where a map writes them. -/
def printedScalars : Kind → Collection → List Scalar
  | .set, c | .list, c => c.values
  | .map, c =>
      match c.association? with
      | some pairs => pairs.flatMap fun pair => [pair.1, pair.2]
      | none => c.values

def emptied : Collection → Collection
  | elements items => elements (items.map Scalar.emptied)
  | entries pairs => entries (pairs.map fun pair => (pair.1.emptied, pair.2.emptied))

def valuesSpans (c : Collection) : List Span :=
  join ", " (c.values.map fun x => [x.span])

def entrySpans (pair : Scalar × Scalar) : List Span := [pair.1.span, .bare ":", pair.2.span]

def mapSpans (c : Collection) : List Span :=
  match c.association? with
  | some pairs => join ", " (pairs.map entrySpans)
  | none => c.valuesSpans

def spans : Kind → Collection → List Span
  | .set, c => .bare "\x7b" :: c.valuesSpans ++ [.bare "\x7d"]
  | .list, c => .bare "[" :: c.valuesSpans ++ [.bare "]"]
  | .map, c => .bare "\x7b" :: c.mapSpans ++ [.bare "\x7d"]

theorem renders_values (xs : List Scalar) :
    Renders (join ", " (xs.map fun x => [x.span])) (separated (xs.map Scalar.literal)) xs := by
  have each : RendersEach (xs.map fun x => [x.span]) (xs.map Scalar.literal) (xs.flatMap fun x => [x]) :=
    rendersEach_map fun x _ => renders_scalar x
  rw [List.flatMap_singleton'] at each
  exact each.join (by decide)

theorem renders_entries (pairs : List (Scalar × Scalar)) :
    Renders (join ", " (pairs.map entrySpans)) (separated (pairs.map entryText))
      (pairs.flatMap fun pair => [pair.1, pair.2]) := by
  refine RendersEach.join (by decide) (rendersEach_map fun pair _ => ?_)
  have colon : QuoteFree ":" := by decide
  exact ((renders_scalar pair.1).concat_bare colon).append (renders_scalar pair.2)

/-- The literal of a collection prints its scalars. -/
theorem renders_spans (kind : Kind) (c : Collection) :
    Renders (c.spans kind) (c.literal kind) (c.printedScalars kind) := by
  have brace : QuoteFree "\x7b" := by decide
  have brace' : QuoteFree "\x7d" := by decide
  have bracket : QuoteFree "[" := by decide
  have bracket' : QuoteFree "]" := by decide
  cases kind with
  | set => exact ((renders_values c.values).bare_cons brace).concat_bare brace'
  | list => exact ((renders_values c.values).bare_cons bracket).concat_bare bracket'
  | map =>
      refine Renders.concat_bare (Renders.bare_cons brace ?_) brace'
      simp only [mapSpans, mapText, printedScalars]
      cases c.association? with
      | none => exact renders_values c.values
      | some pairs => exact renders_entries pairs

theorem values_emptied (c : Collection) : c.emptied.values = c.values.map Scalar.emptied := by
  cases c with
  | elements items => rfl
  | entries pairs => simp only [emptied, values, List.map_map]; rfl

/-- Whether keys are written does not depend on what they hold. -/
theorem association?_emptied (c : Collection) :
    c.emptied.association? =
      c.association?.map (List.map fun pair => (pair.1.emptied, pair.2.emptied)) := by
  cases c with
  | elements items => rfl
  | entries pairs =>
      simp only [emptied, association?, List.all_map, Function.comp_def, Scalar.isString_emptied]
      split <;> rfl

theorem map_emptied_values (xs : List Scalar) :
    (join ", " (xs.map fun x => [x.span])).map Span.emptied =
      join ", " ((xs.map Scalar.emptied).map fun x => [x.span]) := by
  rw [map_emptied_join, List.map_map, List.map_map]
  simp only [Function.comp_def, List.map_cons, List.map_nil, Scalar.emptied_span]

theorem map_emptied_spans (kind : Kind) (c : Collection) :
    (c.spans kind).map Span.emptied = c.emptied.spans kind := by
  have values : c.valuesSpans.map Span.emptied = c.emptied.valuesSpans := by
    rw [valuesSpans, valuesSpans, values_emptied, map_emptied_values]
  have map : c.mapSpans.map Span.emptied = c.emptied.mapSpans := by
    unfold mapSpans
    rw [association?_emptied]
    cases c.association? with
    | none => exact values
    | some pairs =>
        simp only [Option.map_some, map_emptied_join, List.map_map]
        simp only [Function.comp_def, entrySpans, List.map_cons, List.map_nil, Scalar.emptied_span,
          emptied_bare]
  cases kind <;>
    simp only [spans, List.map_cons, List.map_append, List.map_nil, emptied_bare, values, map]

end Collection

namespace Mutation

def printedScalars (m : Mutation) : List Scalar := m.value.printedScalars m.kind

def emptied (m : Mutation) : Mutation := { m with value := m.value.emptied }

def spans (m : Mutation) : List Span := m.value.spans m.kind

theorem renders_spans (m : Mutation) : Renders m.spans m.literal m.printedScalars :=
  m.value.renders_spans m.kind

theorem map_emptied_spans (m : Mutation) : m.spans.map Span.emptied = m.emptied.spans :=
  m.value.map_emptied_spans m.kind

end Mutation

end CqlStatements
