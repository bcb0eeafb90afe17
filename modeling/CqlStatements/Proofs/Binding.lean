import Mathlib.Algebra.GroupWithZero.Nat
import CqlStatements.Statement

/-!
# Texts with values of their own

Binding only counts markers. Which marker a value lands on is therefore decided by all the text in
front of it. A template pairs a text with the values meant for it; it is exact if it has one marker for
each of them. An exact template can be filled on its own, whatever follows it, and this is what carries
values to their places through concatenation and through joins of any length.

The pieces of a text between its markers give a second reading of binding, one that mentions no marker.
-/
namespace CqlStatements

section Counting

@[simp] theorem countMarkers_append (a b : String) :
    countMarkers (a ++ b) = countMarkers a + countMarkers b := by
  simp only [countMarkers, String.toList_append, List.count_append]

theorem countMarkers_eq_zero_iff {text : String} : countMarkers text = 0 ↔ marker ∉ text.toList :=
  List.count_eq_zero

theorem countMarkers_intercalate {separator : String} (h : countMarkers separator = 0)
    (items : List String) :
    countMarkers (separator.intercalate items) = (items.map countMarkers).sum := by
  induction items with
  | nil => rfl
  | cons item items ih =>
      cases items with
      | nil => simp
      | cons next items =>
          rw [String.intercalate_cons_cons, countMarkers_append, countMarkers_append, ih, h]
          simp only [List.map_cons, List.sum_cons]
          omega

/-- A marker is no blank, so trimming loses none. -/
@[simp] theorem countMarkers_trim (text : String) :
    countMarkers (Text.trim text) = countMarkers text := by
  have drop : ∀ cs : List Char, (cs.dropWhile Text.isBlank).count marker = cs.count marker := by
    intro cs
    induction cs with
    | nil => rfl
    | cons c cs ih =>
        by_cases blank : Text.isBlank c = true
        · have other : c ≠ marker := by
            rintro rfl
            exact absurd blank (by decide)
          rw [List.dropWhile_cons_of_pos blank, ih, List.count_cons_of_ne other]
        · rw [List.dropWhile_cons_of_neg blank]
  simp only [countMarkers, Text.toList_trim, Text.trimChars, List.count_reverse, drop]

end Counting

section Filling

theorem bindChars_nil (cs : List Char) : bindChars cs [] = cs := by
  induction cs with
  | nil => rfl
  | cons c cs ih => rw [bindChars, ih]

theorem bindChars_cons_of_ne {c : Char} (h : c ≠ marker) (cs : List Char) (values : List Scalar) :
    bindChars (c :: cs) values = c :: bindChars cs values := by
  cases values with
  | nil => rfl
  | cons v values => simp only [bindChars, h, if_false]

/-- A text that has a marker for each of its own values takes exactly them, and what follows it takes
the rest. -/
theorem bindChars_append {cs : List Char} {own : List Scalar}
    (h : cs.count marker = own.length) (rest : List Char) (values : List Scalar) :
    bindChars (cs ++ rest) (own ++ values) = bindChars cs own ++ bindChars rest values := by
  induction cs generalizing own with
  | nil =>
      rw [List.count_nil] at h
      rw [List.eq_nil_of_length_eq_zero h.symm]
      simp only [List.nil_append, bindChars]
  | cons c cs ih =>
      by_cases hc : c = marker
      · subst hc
        rw [List.count_cons_self] at h
        obtain ⟨v, own, rfl⟩ := List.exists_cons_of_length_eq_add_one h.symm
        have tail : cs.count marker = own.length := by
          simpa only [List.length_cons, Nat.add_right_cancel_iff] using h
        simp only [List.cons_append, bindChars, if_true, ih tail, List.append_assoc]
      · rw [List.count_cons_of_ne hc] at h
        simp only [List.cons_append, bindChars_cons_of_ne hc, ih h]

/-- The pieces of a text with the literal of one value between each two of them. -/
def interleave : List (List Char) → List Scalar → List Char
  | [], _ => []
  | [piece], _ => piece
  | piece :: _ :: _, [] => piece
  | piece :: next :: pieces, v :: values =>
      piece ++ v.literalChars ++ interleave (next :: pieces) values

theorem interleave_cons (c : Char) (piece : List Char) (pieces : List (List Char))
    (values : List Scalar) :
    interleave ((c :: piece) :: pieces) values = c :: interleave (piece :: pieces) values := by
  cases pieces with
  | nil => rfl
  | cons next pieces => cases values <;> rfl

/-- Binding puts the literals between the pieces that the markers leave. Values left over do not
matter. -/
theorem bindChars_eq_interleave {cs : List Char} {values : List Scalar}
    (h : cs.count marker ≤ values.length) :
    bindChars cs values = interleave (Text.splitChars marker cs) values := by
  induction cs generalizing values with
  | nil => cases values <;> rfl
  | cons c cs ih =>
      have parts : Text.splitChars marker cs ≠ [] := by
        apply List.ne_nil_of_length_pos
        rw [Text.length_splitChars]
        exact Nat.succ_pos _
      obtain ⟨piece, pieces, split⟩ := List.exists_cons_of_ne_nil parts
      by_cases hc : c = marker
      · subst hc
        rw [List.count_cons_self] at h
        obtain ⟨v, values, rfl⟩ := List.exists_cons_of_length_pos (Nat.zero_lt_of_lt h)
        have tail : cs.count marker ≤ values.length := by
          simpa only [List.length_cons, Nat.add_le_add_iff_right] using h
        simp only [bindChars, if_true, Text.splitChars, ih tail, split, interleave,
          List.nil_append]
      · rw [List.count_cons_of_ne hc] at h
        rw [bindChars_cons_of_ne hc, ih h]
        simp only [Text.splitChars, hc, if_false, split, List.modifyHead_cons, interleave_cons]

end Filling

/-- A text and the values meant for its markers. -/
@[ext] structure Template where
  text : String
  values : List Scalar
deriving DecidableEq, Repr

namespace Template

/-- Text that is printed as it is. -/
def plain (text : String) : Template := ⟨text, []⟩

/-- The place of one value. -/
def hole (v : Scalar) : Template := ⟨marker.toString, [v]⟩

def append (a b : Template) : Template := ⟨a.text ++ b.text, a.values ++ b.values⟩

instance : Append Template := ⟨append⟩

def join (separator : String) (ts : List Template) : Template :=
  ⟨separator.intercalate (ts.map text), ts.flatMap values⟩

/-- Each value has a marker and each marker a value. -/
def Exact (t : Template) : Prop := countMarkers t.text = t.values.length

def filled (t : Template) : String := String.ofList (bindChars t.text.toList t.values)

@[simp] theorem text_plain (s : String) : (plain s).text = s := rfl
@[simp] theorem values_plain (s : String) : (plain s).values = [] := rfl
@[simp] theorem text_hole (v : Scalar) : (hole v).text = marker.toString := rfl
@[simp] theorem values_hole (v : Scalar) : (hole v).values = [v] := rfl
@[simp] theorem text_append (a b : Template) : (a ++ b).text = a.text ++ b.text := rfl
@[simp] theorem values_append (a b : Template) : (a ++ b).values = a.values ++ b.values := rfl

theorem join_cons_cons (separator : String) (t next : Template) (ts : List Template) :
    join separator (t :: next :: ts) = t ++ plain separator ++ join separator (next :: ts) := by
  ext1
  · simp only [join, List.map_cons, String.intercalate_cons_cons, text_append, text_plain]
  · simp only [join, List.flatMap_cons, values_append, values_plain, List.append_nil]

theorem exact_plain {s : String} (h : countMarkers s = 0) : (plain s).Exact := h

theorem exact_hole (v : Scalar) : (hole v).Exact := by
  simp only [Exact, text_hole, values_hole, List.length_singleton]
  decide

theorem Exact.append {a b : Template} (ha : a.Exact) (hb : b.Exact) : (a ++ b).Exact := by
  unfold Exact at ha hb ⊢
  rw [text_append, values_append, countMarkers_append, List.length_append, ha, hb]

theorem Exact.join {separator : String} (h : countMarkers separator = 0) {ts : List Template}
    (exact : ∀ t ∈ ts, t.Exact) : (Template.join separator ts).Exact := by
  unfold Exact Template.join
  rw [countMarkers_intercalate h, List.map_map, List.length_flatMap]
  exact congrArg List.sum (List.map_congr_left exact)

@[simp] theorem filled_plain (s : String) : (plain s).filled = s := by
  simp only [filled, text_plain, values_plain, bindChars_nil, String.ofList_toList]

@[simp] theorem filled_hole (v : Scalar) : (hole v).filled = v.literal := by
  have marked : (hole v).text.toList = [marker] := by
    simp only [text_hole, Char.toString_eq_singleton, String.toList_singleton]
  simp only [filled, marked, values_hole, bindChars, if_true, List.append_nil, Scalar.literal]

/-- Only the template in front has to be exact. -/
theorem filled_append {a : Template} (ha : a.Exact) (b : Template) :
    (a ++ b).filled = a.filled ++ b.filled := by
  simp only [filled, text_append, values_append, String.toList_append, bindChars_append ha,
    String.ofList_append]

theorem filled_join {separator : String} (h : countMarkers separator = 0) {ts : List Template}
    (exact : ∀ t ∈ ts, t.Exact) :
    (Template.join separator ts).filled = separator.intercalate (ts.map filled) := by
  induction ts with
  | nil => rfl
  | cons t ts ih =>
      cases ts with
      | nil => simp [Template.join, filled]
      | cons next ts =>
          have first : t.Exact := exact t List.mem_cons_self
          have rest := ih fun u hu => exact u (List.mem_cons_of_mem t hu)
          rw [join_cons_cons, filled_append (first.append (exact_plain h)), filled_append first,
            filled_plain, rest]
          simp only [List.map_cons, String.intercalate_cons_cons]

/-- An exact template is bound to itself filled. -/
theorem bind_eq_filled {t : Template} (h : t.Exact) : bind t.text t.values = .ok t.filled := by
  unfold bind
  rw [if_neg (by rw [h]; exact Nat.lt_irrefl _), filled]

end Template
end CqlStatements
