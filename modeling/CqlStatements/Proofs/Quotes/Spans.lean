import Mathlib.Data.List.Basic
import CqlStatements.Scalar
import CqlStatements.Text
import CqlStatements.Proofs.Numerals

/-!
# Spans of a text and its quotes

A text is made of spans: text as it is, and strings between quotes. Where no span holds a quote of its
own, cutting the text at its quotes finds the spans again. The strings lie at the odd places, and what lies
at the even places does not depend on what the strings hold.

A scalar is one span, and only a string is a quoted one. What spans render is told by the text that they
make up and by the scalars whose strings they hold, and it is put together part by part.
-/
namespace CqlStatements

def quote : Char := '\x27'

def QuoteFree (text : String) : Prop := quote ∉ text.toList

instance : DecidablePred QuoteFree := fun text => inferInstanceAs (Decidable (quote ∉ text.toList))

namespace QuoteFree

variable {text text' : String}

theorem append (front : QuoteFree text) (back : QuoteFree text') : QuoteFree (text ++ text') := by
  rw [QuoteFree, String.toList_append, List.mem_append, not_or]
  exact ⟨front, back⟩

theorem intercalate {separator : String} (free : QuoteFree separator) {texts : List String}
    (each : ∀ text ∈ texts, QuoteFree text) : QuoteFree (separator.intercalate texts) := by
  induction texts with
  | nil => exact List.not_mem_nil
  | cons text texts ih =>
      rw [List.forall_mem_cons] at each
      cases texts with
      | nil =>
          rw [String.intercalate_singleton]
          exact each.1
      | cons next texts =>
          rw [String.intercalate_cons_cons]
          exact (each.1.append free).append (ih each.2)

end QuoteFree

/-- A stretch of text. -/
inductive Span where
  | bare (text : String)
  /-- A string between two quotes. -/
  | quoted (s : String)
deriving DecidableEq, Repr

namespace Span

def text : Span → String
  | bare text => text
  | quoted s => quote.toString ++ s ++ quote.toString

def string? : Span → Option String
  | bare _ => none
  | quoted s => some s

/-- The span without what its string holds. -/
def emptied : Span → Span
  | bare text => bare text
  | quoted _ => quoted ""

@[simp] theorem emptied_bare (text : String) : (bare text).emptied = bare text := rfl

/-- No quote stands outside a string. -/
def Unquoted : Span → Prop
  | bare text => QuoteFree text
  | quoted _ => True

instance : DecidablePred Unquoted
  | bare text => inferInstanceAs (Decidable (QuoteFree text))
  | quoted _ => .isTrue trivial

def textOf (spans : List Span) : String := String.join (spans.map text)

/-- The strings of spans, in order. -/
def strings (spans : List Span) : List String := spans.filterMap string?

def join (separator : String) (parts : List (List Span)) : List Span :=
  [bare separator].intercalate parts

/-- What lies between the quotes of spans, and around them. -/
def segments : List Span → List (List Char)
  | [] => [[]]
  | bare text :: spans => (segments spans).modifyHead (text.toList ++ ·)
  | quoted s :: spans => [] :: s.toList :: segments spans

section Segments

theorem toList_textOf_cons (span : Span) (spans : List Span) :
    (textOf (span :: spans)).toList = span.text.toList ++ (textOf spans).toList := by
  simp only [textOf, String.toList_join, List.map_cons, List.flatMap_cons]

/-- A text without stray quotes is cut at its quotes into the segments of its spans. -/
theorem splitChars_textOf {spans : List Span} (unquoted : ∀ span ∈ spans, span.Unquoted)
    (free : ∀ s ∈ strings spans, QuoteFree s) :
    Text.splitChars quote (textOf spans).toList = segments spans := by
  induction spans with
  | nil => rfl
  | cons span spans ih =>
      rw [List.forall_mem_cons] at unquoted
      rw [toList_textOf_cons]
      cases span with
      | bare text => rw [segments, ← ih unquoted.2 free, ← Text.splitChars_append unquoted.1, Span.text]
      | quoted s =>
          have own : QuoteFree s ∧ ∀ s ∈ strings spans, QuoteFree s :=
            List.forall_mem_cons.mp free
          have opened : (quoted s).text.toList ++ (textOf spans).toList =
              quote :: (s.toList ++ quote :: (textOf spans).toList) := by
            simp [Span.text]
          rw [segments, ← ih unquoted.2 own.2, opened, Text.splitChars, if_pos rfl,
            Text.splitChars_cut own.1]

theorem length_segments (spans : List Span) :
    (segments spans).length = 2 * (strings spans).length + 1 := by
  induction spans with
  | nil => rfl
  | cons span spans ih =>
      cases span with
      | bare text => rw [segments, List.length_modifyHead, ih]; rfl
      | quoted s =>
          have strings : strings (quoted s :: spans) = s :: strings spans := rfl
          simp only [segments, List.length_cons, ih, strings]
          omega

/-- The strings lie at the odd places. -/
theorem getElem?_segments_odd (spans : List Span) (i : ℕ) :
    (segments spans)[2 * i + 1]? = (strings spans)[i]?.map String.toList := by
  induction spans generalizing i with
  | nil => rfl
  | cons span spans ih =>
      cases span with
      | bare text => rw [segments, List.getElem?_modifyHead_succ, ih]; rfl
      | quoted s =>
          cases i with
          | zero => rfl
          | succ i => exact ih i

/-- What lies at the even places does not depend on the strings. -/
theorem getElem?_segments_even (spans : List Span) (i : ℕ) :
    (segments spans)[2 * i]? = (segments (spans.map emptied))[2 * i]? := by
  induction spans generalizing i with
  | nil => rfl
  | cons span spans ih =>
      cases span with
      | bare text =>
          have same : (bare text :: spans).map emptied = bare text :: spans.map emptied := rfl
          rw [same, segments, segments, List.getElem?_modifyHead, List.getElem?_modifyHead, ih]
      | quoted s =>
          cases i with
          | zero => rfl
          | succ i => exact ih i

end Segments

end Span

namespace Scalar

/-- The string that a scalar is, if it is one. -/
def string? : Scalar → Option String
  | .string s => some s
  | _ => none

def span : Scalar → Span
  | .string s => .quoted s
  | x => .bare x.literal

/-- The scalar without what it holds if it is a string. -/
def emptied : Scalar → Scalar
  | .string _ => .string ""
  | x => x

theorem emptied_span (x : Scalar) : x.span.emptied = x.emptied.span := by
  cases x <;> rfl

theorem isString_emptied (x : Scalar) : x.emptied.isString = x.isString := by
  cases x <;> rfl

theorem text_span (x : Scalar) : x.span.text = x.literal := by
  cases x with
  | null | bool | int | float => rfl
  | string s =>
      rw [← String.toList_inj, toList_literal, literalChars, span, Span.text]
      simp [quote]

/-- The characters of literals that are not quoted. -/
def isBare (c : Char) : Bool := c.isAlphanum || c == '-' || c == '+' || c == '.'

theorem isBare_digitChar (d : Fin 10) : isBare (Numeral.digitChar d) = true := by
  revert d
  decide

theorem isBare_of_mem_sign {negative : Prop} [Decidable negative] {c : Char}
    (mem : c ∈ if negative then ['-'] else []) : isBare c = true := by
  split at mem
  · obtain rfl := List.mem_singleton.mp mem
    decide
  · simp at mem

theorem isBare_of_mem_toDigits {n : ℕ} {c : Char} (mem : c ∈ Nat.toDigits 10 n) :
    isBare c = true := by
  obtain ⟨first, more, text, -, -⟩ := Numeral.exists_digits n
  rw [text, List.mem_map] at mem
  obtain ⟨d, -, rfl⟩ := mem
  exact isBare_digitChar d

theorem isBare_of_mem_fraction {digits : List (Fin 10)} {c : Char}
    (mem : c ∈ Numeral.fractionChars digits) : isBare c = true := by
  cases digits with
  | nil => simp [Numeral.fractionChars] at mem
  | cons d digits =>
      rw [Numeral.fractionChars, List.mem_cons, List.mem_map] at mem
      rcases mem with rfl | ⟨d, -, rfl⟩
      · decide
      · exact isBare_digitChar d
      · simp

theorem isBare_of_mem_exponent {e : Option Int} {c : Char}
    (mem : c ∈ Numeral.exponentChars e) : isBare c = true := by
  cases e with
  | none => simp [Numeral.exponentChars] at mem
  | some e =>
      rw [Numeral.exponentChars, List.mem_cons, List.mem_cons] at mem
      rcases mem with rfl | rfl | mem
      · decide
      · split <;> decide
      · exact isBare_of_mem_toDigits mem

theorem isBare_of_mem_numeral {n : Numeral} {c : Char} (mem : c ∈ n.chars) : isBare c = true := by
  simp only [Numeral.chars, List.mem_append] at mem
  rcases mem with ((sign | whole) | fraction) | exponent
  · exact isBare_of_mem_sign sign
  · exact isBare_of_mem_toDigits whole
  · exact isBare_of_mem_fraction fraction
  · exact isBare_of_mem_exponent exponent

/-- A literal that is not quoted holds no quotes and no characters that separate literals. -/
theorem isBare_of_mem_literal {x : Scalar} (other : x.isString = false) {c : Char}
    (mem : c ∈ x.literalChars) : isBare c = true := by
  have word : (["null", "true", "false", "NaN", "inf"].all fun text => text.toList.all isBare) = true := by
    decide
  simp only [List.all_eq_true] at word
  cases x with
  | null => exact word "null" (by simp) c mem
  | bool b =>
      cases b with
      | true => exact word "true" (by simp) c mem
      | false => exact word "false" (by simp) c mem
  | int n =>
      rw [literalChars, Integer.chars, List.mem_append] at mem
      exact mem.elim isBare_of_mem_sign isBare_of_mem_toDigits
  | float x =>
      rw [literalChars, Binary64.plain] at mem
      split at mem
      · exact word "NaN" (by simp) c mem
      · split at mem
        · exact isBare_of_mem_numeral mem
        · rw [List.mem_append] at mem
          exact mem.elim isBare_of_mem_sign (word "inf" (by simp) c)
  | string s => simp [isString] at other

/-- Only the literal of a string has quotes. -/
theorem unquoted_span (x : Scalar) : x.span.Unquoted := by
  have plain : ∀ x : Scalar, x.isString = false → QuoteFree x.literal := by
    intro x other mem
    rw [toList_literal] at mem
    exact absurd (isBare_of_mem_literal other mem) (by decide)
  cases x with
  | null | bool | int | float => exact plain _ rfl
  | string s => trivial

end Scalar

namespace Span

section Renderings

variable {spans spans' : List Span} {text text' : String} {xs xs' : List Scalar}

/-- The spans make up the text, and their strings are those of the scalars. -/
structure Renders (spans : List Span) (text : String) (xs : List Scalar) : Prop where
  text_eq : textOf spans = text
  strings_eq : strings spans = xs.filterMap Scalar.string?
  unquoted : ∀ span ∈ spans, span.Unquoted

/-- Each part renders its own text and scalars. -/
inductive RendersEach : List (List Span) → List String → List Scalar → Prop
  | nil : RendersEach [] [] []
  | cons {spans text xs parts texts ys} : Renders spans text xs → RendersEach parts texts ys →
      RendersEach (spans :: parts) (text :: texts) (xs ++ ys)

theorem renders_nil : Renders [] "" [] := ⟨rfl, rfl, by simp⟩

theorem renders_bare (free : QuoteFree text) : Renders [bare text] text [] := by
  refine ⟨?_, rfl, ?_⟩
  · simp [textOf, Span.text]
  · simpa [Unquoted] using free

theorem renders_scalar (x : Scalar) : Renders [x.span] x.literal [x] := by
  refine ⟨?_, ?_, ?_⟩
  · simp [textOf, Scalar.text_span]
  · cases x <;> rfl
  · simpa using x.unquoted_span

theorem Renders.append (front : Renders spans text xs) (back : Renders spans' text' xs') :
    Renders (spans ++ spans') (text ++ text') (xs ++ xs') := by
  refine ⟨?_, ?_, ?_⟩
  · rw [← front.text_eq, ← back.text_eq, textOf, List.map_append, String.join_append]
    rfl
  · rw [List.filterMap_append, ← front.strings_eq, ← back.strings_eq, strings,
      List.filterMap_append]
    rfl
  · exact List.forall_mem_append.mpr ⟨front.unquoted, back.unquoted⟩

theorem Renders.bare_cons (free : QuoteFree text') (back : Renders spans text xs) :
    Renders (.bare text' :: spans) (text' ++ text) xs := by
  have whole := (renders_bare free).append back
  rw [List.singleton_append, List.nil_append] at whole
  exact whole

theorem Renders.scalar_cons (x : Scalar) (back : Renders spans text xs) :
    Renders (x.span :: spans) (x.literal ++ text) (x :: xs) := by
  have whole := (renders_scalar x).append back
  rw [List.singleton_append, List.singleton_append] at whole
  exact whole

theorem Renders.concat_bare (front : Renders spans text xs) (free : QuoteFree text') :
    Renders (spans ++ [.bare text']) (text ++ text') xs := by
  have whole := front.append (renders_bare free)
  rw [List.append_nil] at whole
  exact whole

theorem RendersEach.append {parts parts' : List (List Span)} {texts texts' : List String}
    (front : RendersEach parts texts xs) (back : RendersEach parts' texts' xs') :
    RendersEach (parts ++ parts') (texts ++ texts') (xs ++ xs') := by
  induction front with
  | nil => exact back
  | cons first _ ih =>
      rw [List.append_assoc]
      exact .cons first ih

theorem rendersEach_map {α : Type} {items : List α} {f : α → List Span} {g : α → String}
    {h : α → List Scalar} (each : ∀ x ∈ items, Renders (f x) (g x) (h x)) :
    RendersEach (items.map f) (items.map g) (items.flatMap h) := by
  induction items with
  | nil => exact .nil
  | cons x items ih =>
      rw [List.forall_mem_cons] at each
      exact .cons each.1 (ih each.2)

theorem RendersEach.join {separator : String} (free : QuoteFree separator)
    {parts : List (List Span)} {texts : List String} (each : RendersEach parts texts xs) :
    Renders (Span.join separator parts) (separator.intercalate texts) xs := by
  induction each with
  | nil => exact renders_nil
  | cons first others ih =>
      cases others with
      | nil =>
          rw [Span.join, List.intercalate_singleton, String.intercalate_singleton, List.append_nil]
          exact first
      | cons next others =>
          rw [Span.join, List.intercalate_cons_cons, String.intercalate_cons_cons]
          exact (first.concat_bare free).append ih

/-- Emptying the strings of joined parts empties those of each part. -/
theorem map_emptied_join (separator : String) (parts : List (List Span)) :
    (join separator parts).map emptied = join separator (parts.map (List.map emptied)) := by
  induction parts with
  | nil => rfl
  | cons part parts ih =>
      cases parts with
      | nil => simp [join]
      | cons next parts =>
          simp only [join, List.map_cons, List.intercalate_cons_cons, List.map_append] at ih ⊢
          rw [ih]
          rfl

end Renderings

end Span
end CqlStatements
