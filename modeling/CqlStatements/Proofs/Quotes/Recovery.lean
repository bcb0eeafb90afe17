import Mathlib.Data.List.Basic
import CqlStatements.Proofs.Quotes.Literals
import CqlStatements.Proofs.Runs

/-!
# What a literal tells about its collection

Where no printed string holds a quote, the literal at the front of a text can be told from what stands
behind it: a string ends with its second quote, and no other literal holds a comma or a colon. So the items
of a collection's literal are found again one after the other, whatever separators its strings hold, and an
item with a key is told from one without by the colon.

Two such collections have the same literal in a column exactly if their values have the same literals and,
for a map, both write keys with the same literals or neither writes any.
-/
namespace CqlStatements

namespace Scalar

/-- A string that the scalar is has no quotes of its own. -/
def Enclosed (x : Scalar) : Prop := ∀ s, x.string? = some s → QuoteFree s

/-- The literal at the front of a text: a string up to its second quote, any other one as far as its
characters go. -/
def literalAt : List Char → List Char
  | [] => []
  | c :: cs =>
      if c = quote then quote :: cs.takeWhile (· != quote) ++ [quote]
      else (c :: cs).takeWhile isBare

theorem literalChars_ne_nil (x : Scalar) : x.literalChars ≠ [] := by
  cases x with
  | null => decide
  | bool b => cases b <;> decide
  | int n =>
      obtain ⟨first, more, text, -, -⟩ := Numeral.exists_digits n.toInt.natAbs
      rw [literalChars, Integer.chars, text, List.map_cons]
      exact List.append_ne_nil_of_right_ne_nil _ (List.cons_ne_nil _ _)
  | float x =>
      rw [literalChars, Binary64.plain]
      split
      · decide
      · split
        · obtain ⟨c, cs, text, -⟩ := Numeral.exists_chars_eq x.positional
          rw [text]
          exact List.cons_ne_nil c cs
        · exact List.append_ne_nil_of_right_ne_nil _ (by decide)
  | string s => exact List.cons_ne_nil _ _

variable {x : Scalar} {rest : List Char}

/-- The literal is found again in front of any text that does not go on with one of its characters. -/
theorem literalAt_append (enclosed : x.Enclosed)
    (ends : ∀ c, rest.head? = some c → isBare c = false) :
    literalAt (x.literalChars ++ rest) = x.literalChars := by
  cases kind : x.isString with
  | false =>
      have bare := fun c => isBare_of_mem_literal kind (c := c)
      obtain ⟨c, cs, chars⟩ := List.exists_cons_of_ne_nil x.literalChars_ne_nil
      have not_quote : c ≠ quote := by
        rintro rfl
        exact absurd (bare quote (by simp [chars])) (by decide)
      rw [chars, List.cons_append, literalAt, if_neg not_quote, ← List.cons_append, ← chars,
        Text.takeWhile_run bare ends]
  | true =>
      cases x with
      | null | bool | int | float => simp [isString] at kind
      | string s =>
          have free : ∀ c ∈ s.toList, (c != quote) = true := by
            intro c mem
            rw [bne_iff_ne]
            rintro rfl
            exact enclosed s rfl mem
          have opened : (string s).literalChars ++ rest = quote :: (s.toList ++ quote :: rest) := by
            simp [literalChars, quote]
          rw [opened, literalAt, if_pos rfl, Text.takeWhile_run free (by simp)]
          rfl

end Scalar

namespace Collection

section Items

/-- What a literal prints for one value: its literal, behind that of its key where keys are written. -/
structure Item where
  key : Option Scalar
  value : Scalar
deriving DecidableEq, Repr

namespace Item

def literals (item : Item) : Option String × String :=
  (item.key.map Scalar.literal, item.value.literal)

def textOf : Option String × String → String
  | (none, value) => value
  | (some key, value) => key ++ ":" ++ value

def text (item : Item) : String := textOf item.literals

def scalars (item : Item) : List Scalar := item.key.toList ++ [item.value]

end Item

/-- The items that a literal prints, in order. -/
def items : Kind → Collection → List Item
  | .set, c | .list, c => c.values.map fun v => ⟨none, v⟩
  | .map, c =>
      match c.association? with
      | some pairs => pairs.map fun pair => ⟨some pair.1, pair.2⟩
      | none => c.values.map fun v => ⟨none, v⟩

def opening : Kind → String
  | .set | .map => "\x7b"
  | .list => "["

def closing : Kind → String
  | .set | .map => "\x7d"
  | .list => "]"

theorem literal_eq_items (kind : Kind) (c : Collection) :
    c.literal kind = opening kind ++ separated ((c.items kind).map Item.text) ++ closing kind := by
  have values : (c.values.map fun v => Item.mk none v).map Item.text = c.values.map Scalar.literal := by
    rw [List.map_map]
    rfl
  cases kind with
  | set | list => rw [items, values]; rfl
  | map =>
      rw [literal, mapText, items]
      cases c.association? with
      | none => rw [values]; rfl
      | some pairs => rw [List.map_map]; rfl

theorem flatMap_scalars_items (kind : Kind) (c : Collection) :
    (c.items kind).flatMap Item.scalars = c.printedScalars kind := by
  have values : (c.values.map fun v => Item.mk none v).flatMap Item.scalars = c.values := by
    rw [List.flatMap_map]
    exact List.flatMap_singleton' c.values
  cases kind with
  | set | list => exact values
  | map =>
      rw [items, printedScalars]
      cases c.association? with
      | none => exact values
      | some pairs => rw [List.flatMap_map]; rfl

end Items

section Boundaries

variable {item item' : Item} {xs ys : List Item} {rest rest' : List Char}

/-- Text that can stand behind an item: none, or what follows a comma. -/
def BehindItem (rest : List Char) : Prop := ∀ c, rest.head? = some c → c = ','

/-- The literals of the item at the front of a text. -/
def itemAt (text : List Char) : Option String × String :=
  let first := Scalar.literalAt text
  match text.drop first.length with
  | ':' :: behind => (some (String.ofList first), String.ofList (Scalar.literalAt behind))
  | _ => (none, String.ofList first)

theorem itemAt_append (enclosed : ∀ x ∈ item.scalars, x.Enclosed) (behind : BehindItem rest) :
    itemAt (item.text.toList ++ rest) = item.literals := by
  have ends : ∀ c, rest.head? = some c → Scalar.isBare c = false := by
    intro c head
    rw [behind c head]
    decide
  obtain ⟨key, value⟩ := item
  cases key with
  | none =>
      have value_enclosed := enclosed value (by simp [Item.scalars])
      have text_eq : (Item.mk none value).text.toList = value.literalChars := value.toList_literal
      have first := Scalar.literalAt_append value_enclosed ends
      rw [text_eq, itemAt, first]
      simp only [List.drop_left]
      -- a colon cannot follow, since only a comma can
      split
      · exact absurd (behind ':' rfl) (by decide)
      · rfl
  | some key =>
      have key_enclosed := enclosed key (by simp [Item.scalars])
      have value_enclosed := enclosed value (by simp [Item.scalars])
      have text_eq : (Item.mk (some key) value).text.toList ++ rest =
          key.literalChars ++ ':' :: (value.literalChars ++ rest) := by
        simp [Item.text, Item.literals, Item.textOf]
      have colon : ∀ c, (':' :: (value.literalChars ++ rest)).head? = some c →
          Scalar.isBare c = false := by
        intro c head
        obtain rfl : ':' = c := Option.some.inj head
        decide
      have first := Scalar.literalAt_append key_enclosed colon
      rw [text_eq, itemAt, first]
      simp only [List.drop_left, Scalar.literalAt_append value_enclosed ends]
      rfl

theorem Item.text_append_inj (enclosed : ∀ x ∈ item.scalars, x.Enclosed)
    (enclosed' : ∀ x ∈ item'.scalars, x.Enclosed) (behind : BehindItem rest)
    (behind' : BehindItem rest') (same : item.text.toList ++ rest = item'.text.toList ++ rest') :
    item.literals = item'.literals ∧ rest = rest' := by
  have first := congrArg itemAt same
  rw [itemAt_append enclosed behind, itemAt_append enclosed' behind'] at first
  rw [text, text, first] at same
  exact ⟨first, List.append_cancel_left same⟩

theorem Item.text_ne_nil (item : Item) : item.text.toList ≠ [] := by
  have value := item.value.literalChars_ne_nil
  rw [← Scalar.toList_literal] at value
  unfold text textOf
  split
  · rename_i shape
    obtain ⟨-, rfl⟩ := Prod.mk.inj shape
    exact value
  · simp

/-- What a literal prints for an item that is not the first one. -/
def Item.further (item : Item) : List Char := ',' :: ' ' :: item.text.toList

theorem toList_separated_cons (item : Item) (xs : List Item) :
    (separated ((item :: xs).map Item.text)).toList =
      item.text.toList ++ xs.flatMap Item.further := by
  induction xs generalizing item with
  | nil => simp [separated]
  | cons next xs ih =>
      have rest := ih next
      rw [separated] at rest ⊢
      rw [List.map_cons, List.map_cons, String.intercalate_cons_cons, ← List.map_cons,
        String.toList_append, String.toList_append, rest, List.flatMap_cons]
      simp [Item.further]

theorem behindItem_further (xs : List Item) : BehindItem (xs.flatMap Item.further) := by
  intro c head
  cases xs with
  | nil => simp at head
  | cons item xs =>
      rw [List.flatMap_cons, Item.further, List.cons_append, List.head?_cons, Option.some.injEq] at head
      exact head.symm

theorem literals_eq_of_further (enclosed : ∀ item ∈ xs, ∀ x ∈ item.scalars, x.Enclosed)
    (enclosed' : ∀ item ∈ ys, ∀ x ∈ item.scalars, x.Enclosed)
    (same : xs.flatMap Item.further = ys.flatMap Item.further) :
    xs.map Item.literals = ys.map Item.literals := by
  -- the first items are cut off on both sides, in front of the commas of the others
  induction xs generalizing ys with
  | nil =>
      cases ys with
      | nil => rfl
      | cons item ys => simp [Item.further] at same
  | cons item xs ih =>
      cases ys with
      | nil => simp [Item.further] at same
      | cons item' ys =>
          rw [List.forall_mem_cons] at enclosed enclosed'
          simp only [List.flatMap_cons, Item.further, List.cons_append, List.cons.injEq,
            true_and] at same
          obtain ⟨first, others⟩ := Item.text_append_inj enclosed.1 enclosed'.1
            (behindItem_further xs) (behindItem_further ys) same
          rw [List.map_cons, List.map_cons, first, ih enclosed.2 enclosed'.2 others]

/-- The items between the brackets have the literals that they are printed with. -/
theorem separated_eq_iff (enclosed : ∀ item ∈ xs, ∀ x ∈ item.scalars, x.Enclosed)
    (enclosed' : ∀ item ∈ ys, ∀ x ∈ item.scalars, x.Enclosed) :
    separated (xs.map Item.text) = separated (ys.map Item.text) ↔
      xs.map Item.literals = ys.map Item.literals := by
  constructor
  · intro same
    rw [← String.toList_inj] at same
    cases xs with
    | nil =>
        cases ys with
        | nil => rfl
        | cons item ys =>
            rw [toList_separated_cons] at same
            exact absurd (List.append_eq_nil_iff.mp same.symm).1 item.text_ne_nil
    | cons item xs =>
        cases ys with
        | nil =>
            rw [toList_separated_cons] at same
            exact absurd (List.append_eq_nil_iff.mp same).1 item.text_ne_nil
        | cons item' ys =>
            rw [toList_separated_cons, toList_separated_cons] at same
            apply literals_eq_of_further enclosed enclosed'
            simp only [List.flatMap_cons, Item.further, List.cons_append, same]
  · intro same
    have texts : ∀ zs : List Item, zs.map Item.text = (zs.map Item.literals).map Item.textOf := by
      intro zs
      rw [List.map_map]
      rfl
    rw [texts, texts, same]

end Boundaries

section Recovery

variable {kind : Kind} {c c' : Collection}

/-- The strings that a literal prints. -/
def printedStrings (kind : Kind) (c : Collection) : List String :=
  (c.printedScalars kind).filterMap Scalar.string?

def keys : Collection → List Scalar
  | elements _ => []
  | entries pairs => pairs.map Prod.fst

/-- There are keys, and all of them are strings, so that a map writes them. -/
def IsAssociative (c : Collection) : Prop := c.keys ≠ [] ∧ ∀ k ∈ c.keys, k.isString = true

instance (c : Collection) : Decidable c.IsAssociative := inferInstanceAs (Decidable (_ ∧ _))

theorem items_of_associative {pairs : List (Scalar × Scalar)}
    (associative : (entries pairs).IsAssociative) :
    (entries pairs).items .map = pairs.map fun pair => ⟨some pair.1, pair.2⟩ := by
  have strings : (pairs.all fun pair => pair.1.isString) = true := by
    rw [List.all_eq_true]
    exact fun pair mem => associative.2 pair.1 (List.mem_map_of_mem mem)
  rw [items, association?, if_pos strings]

theorem items_of_not_associative (plain : ¬(kind = .map ∧ c.IsAssociative)) :
    c.items kind = c.values.map fun v => ⟨none, v⟩ := by
  cases kind with
  | set | list => rfl
  | map =>
      cases c with
      | elements xs => rfl
      | entries pairs =>
          rw [items, association?]
          split
          · rename_i strings
            split at strings
            · -- all keys are strings, so there are none
              rename_i all
              have no_keys : (entries pairs).keys = [] := by
                by_contra some_keys
                refine plain ⟨rfl, some_keys, ?_⟩
                simpa [keys] using all
              obtain rfl : pairs = [] := List.map_eq_nil_iff.mp no_keys
              obtain rfl := Option.some.inj strings
              rfl
            · simp at strings
          · rfl

theorem map_value_items (kind : Kind) (c : Collection) : (c.items kind).map Item.value = c.values := by
  by_cases associative : kind = .map ∧ c.IsAssociative
  · obtain ⟨rfl, associative⟩ := associative
    cases c with
    | elements xs => exact absurd rfl associative.1
    | entries pairs => rw [items_of_associative associative, List.map_map]; rfl
  · rw [items_of_not_associative associative, List.map_map]
    exact List.map_id c.values

theorem map_key_items (kind : Kind) (c : Collection) :
    (c.items kind).map Item.key =
      if kind = .map ∧ c.IsAssociative then c.keys.map some else c.values.map fun _ => none := by
  split
  · rename_i associative
    obtain ⟨rfl, associative⟩ := associative
    cases c with
    | elements xs => exact absurd rfl associative.1
    | entries pairs =>
        rw [items_of_associative associative, List.map_map, keys, List.map_map]
        rfl
  · rename_i plain
    rw [items_of_not_associative plain, List.map_map]
    rfl

theorem map_literals_eq_iff {xs ys : List Item} :
    xs.map Item.literals = ys.map Item.literals ↔
      (xs.map Item.key).map (Option.map Scalar.literal) =
          (ys.map Item.key).map (Option.map Scalar.literal) ∧
        (xs.map Item.value).map Scalar.literal = (ys.map Item.value).map Scalar.literal := by
  induction xs generalizing ys with
  | nil => cases ys <;> simp
  | cons x xs ih =>
      cases ys with
      | nil => simp
      | cons y ys =>
          simp only [List.map_cons, List.cons.injEq, ih, Item.literals, Prod.mk.injEq]
          exact and_and_and_comm

theorem enclosed_of_printedStrings (free : ∀ s ∈ c.printedStrings kind, QuoteFree s) :
    ∀ item ∈ c.items kind, ∀ x ∈ item.scalars, x.Enclosed := by
  intro item mem x inside s string
  have printed : x ∈ c.printedScalars kind := by
    rw [← flatMap_scalars_items, List.mem_flatMap]
    exact ⟨item, mem, inside⟩
  exact free s (List.mem_filterMap.mpr ⟨x, printed, string⟩)

/-- Items without keys are told from items with keys, and the literals of keys from each other. -/
theorem map_key_eq_iff (lengths : c.values.length = c'.values.length) :
    ((c.items kind).map Item.key).map (Option.map Scalar.literal) =
        ((c'.items kind).map Item.key).map (Option.map Scalar.literal) ↔
      (kind = .map → (c.IsAssociative ↔ c'.IsAssociative) ∧
        (c.IsAssociative → c.keys.map Scalar.literal = c'.keys.map Scalar.literal)) := by
  have plain : ∀ xs : List Scalar, (xs.map fun _ => (none : Option Scalar)).map
      (Option.map Scalar.literal) = List.replicate xs.length none := by
    intro xs
    rw [List.map_map]
    exact List.map_const'
  have keyed : ∀ xs : List Scalar, (xs.map some).map (Option.map Scalar.literal) =
      (xs.map Scalar.literal).map some := by
    intro xs
    rw [List.map_map, List.map_map]
    rfl
  have differ : ∀ (xs : List Scalar) (n : ℕ), xs ≠ [] →
      (xs.map Scalar.literal).map some ≠ List.replicate n none := by
    intro xs n nonempty same
    obtain ⟨x, xs, rfl⟩ := List.exists_cons_of_ne_nil nonempty
    have first : some x.literal ∈ List.replicate n (none : Option String) := by
      rw [← same]
      simp
    simpa using List.eq_of_mem_replicate first
  rw [map_key_items, map_key_items]
  by_cases is_map : kind = .map
  · simp only [is_map, true_and, true_imp_iff]
    by_cases associative : c.IsAssociative <;> by_cases associative' : c'.IsAssociative
    · rw [if_pos associative, if_pos associative', keyed, keyed,
        List.map_inj_right fun _ _ => Option.some.inj]
      simp only [associative, associative', true_imp_iff, true_and]
    · rw [if_pos associative, if_neg associative', keyed, plain]
      simp only [differ _ _ associative.1, associative, associative', iff_false, not_true,
        false_and]
    · rw [if_neg associative, if_pos associative', keyed, plain]
      simp only [(differ _ _ associative'.1).symm, associative, associative', iff_true, false_and]
    · rw [if_neg associative, if_neg associative', plain, plain, lengths]
      simp only [associative, associative', false_imp_iff, and_true]
  · simp only [is_map, false_and, if_false, plain, lengths, false_imp_iff]

/-- The literals of two collections without quotes in their printed strings are the same exactly if the
values have the same literals and, in a map, keys are written by both or by neither and have the same
literals. -/
theorem literal_eq_iff (free : ∀ s ∈ c.printedStrings kind, QuoteFree s)
    (free' : ∀ s ∈ c'.printedStrings kind, QuoteFree s) :
    c.literal kind = c'.literal kind ↔
      c.values.map Scalar.literal = c'.values.map Scalar.literal ∧
        (kind = .map → (c.IsAssociative ↔ c'.IsAssociative) ∧
          (c.IsAssociative → c.keys.map Scalar.literal = c'.keys.map Scalar.literal)) := by
  rw [literal_eq_items, literal_eq_items, String.append_left_inj, String.append_right_inj,
    separated_eq_iff (enclosed_of_printedStrings free) (enclosed_of_printedStrings free'),
    map_literals_eq_iff, map_value_items, map_value_items, and_comm]
  refine and_congr_right fun values => map_key_eq_iff ?_
  simpa only [List.length_map] using congrArg List.length values

/-- One entry whose key looks like the end of one entry and the beginning of the next. -/
def separatorsInKey (value : Scalar) : Collection := entries [(.string "k:1, \x7d", value)]

/-- The number one, written as an integer and as a float, behind such a key. -/
theorem literal_eq_iff_separatorsInKey :
    (∀ s ∈ (separatorsInKey (.int 1)).printedStrings .map, QuoteFree s) ∧
      (∀ s ∈ (separatorsInKey (.float ⟨0x3FF0000000000000⟩)).printedStrings .map, QuoteFree s) ∧
      (separatorsInKey (.int 1)).literal .map =
        (separatorsInKey (.float ⟨0x3FF0000000000000⟩)).literal .map ∧
      (separatorsInKey (.int 1)).values.map Scalar.literal =
        (separatorsInKey (.float ⟨0x3FF0000000000000⟩)).values.map Scalar.literal ∧
      ((separatorsInKey (.int 1)).IsAssociative ↔
        (separatorsInKey (.float ⟨0x3FF0000000000000⟩)).IsAssociative) ∧
      ((separatorsInKey (.int 1)).IsAssociative →
        (separatorsInKey (.int 1)).keys.map Scalar.literal =
          (separatorsInKey (.float ⟨0x3FF0000000000000⟩)).keys.map Scalar.literal) := by
  have free : ∀ s ∈ (separatorsInKey (.int 1)).printedStrings .map, QuoteFree s := by
    decide +kernel
  have free' : ∀ s ∈ (separatorsInKey (.float ⟨0x3FF0000000000000⟩)).printedStrings .map,
      QuoteFree s := by
    decide +kernel
  have same : (separatorsInKey (.int 1)).literal .map =
      (separatorsInKey (.float ⟨0x3FF0000000000000⟩)).literal .map := by
    decide +kernel
  obtain ⟨values, keys⟩ := (literal_eq_iff free free').mp same
  exact ⟨free, free', same, values, keys rfl⟩

/-- A quote in a string can make one element look like two. -/
example : (elements [.string "a', 'b"]).literal .set =
    (elements [.string "a", .string "b"]).literal .set := by
  decide

end Recovery

end Collection
end CqlStatements
