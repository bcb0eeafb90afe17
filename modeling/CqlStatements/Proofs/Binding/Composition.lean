import CqlStatements.Config
import CqlStatements.Proofs.Binding
import CqlStatements.Proofs.Fallible

/-!
# Binding in parts

A text takes as many values as it has markers, the first ones, and what stands behind it takes the values
that follow. So binding goes over a concatenation part by part, and values left over change nothing. What
was put in is not looked at again: the markers of a bound text are those of the literals in it.

A text without markers takes no values, and so it may be added before binding or afterwards. Asking for
filtering is such an addition.
-/
namespace CqlStatements

variable {text : String} {cs : List Char} {values : List Scalar}

section Parts

/-- The text in front takes the first values and what stands behind it takes the others. -/
theorem bindChars_append_of_le (covered : cs.count marker ≤ values.length) (rest : List Char) :
    bindChars (cs ++ rest) values =
      bindChars cs (values.take (cs.count marker)) ++
        bindChars rest (values.drop (cs.count marker)) := by
  have exact : cs.count marker = (values.take (cs.count marker)).length := by
    rw [List.length_take, Nat.min_eq_left covered]
  have whole := bindChars_append exact rest (values.drop (cs.count marker))
  rwa [List.take_append_drop] at whole

/-- Values left over do not matter. -/
theorem bindChars_take (covered : cs.count marker ≤ values.length) :
    bindChars cs (values.take (cs.count marker)) = bindChars cs values := by
  have whole := bindChars_append_of_le covered []
  rw [List.append_nil, bindChars, List.append_nil] at whole
  exact whole.symm

theorem bindChars_of_unmarked (unmarked : marker ∉ cs) (values : List Scalar) :
    bindChars cs values = cs := by
  have own : cs.count marker = ([] : List Scalar).length := List.count_eq_zero.mpr unmarked
  have whole := bindChars_append own [] values
  rwa [List.append_nil, List.nil_append, bindChars_nil, bindChars, List.append_nil] at whole

/-- The markers of the bound text are those of the literals that were put in. -/
theorem count_bindChars (covered : cs.count marker ≤ values.length) :
    (bindChars cs values).count marker =
      ((values.take (cs.count marker)).map fun v => v.literalChars.count marker).sum := by
  -- the values are taken along with the markers of the text, never with those of a literal
  induction cs generalizing values with
  | nil => rfl
  | cons c cs ih =>
      by_cases hc : c = marker
      · subst hc
        rw [List.count_cons_self] at covered ⊢
        obtain ⟨v, values, rfl⟩ := List.exists_cons_of_length_pos (Nat.zero_lt_of_lt covered)
        have tail : cs.count marker ≤ values.length := Nat.le_of_succ_le_succ covered
        rw [bindChars, if_pos rfl, List.count_append, ih tail, List.take_succ_cons, List.map_cons,
          List.sum_cons]
      · rw [List.count_cons_of_ne hc] at covered ⊢
        rw [bindChars_cons_of_ne hc, List.count_cons_of_ne hc, ih covered]

end Parts

section Outcomes

theorem bind_ok_iff {result : String} :
    bind text values = .ok result ↔
      countMarkers text ≤ values.length ∧ result.toList = bindChars text.toList values := by
  unfold bind
  split
  · rename_i short
    refine iff_of_false (by simp) ?_
    exact fun covered => absurd covered.1 (Nat.not_le_of_lt short)
  · rename_i enough
    rw [Except.ok.injEq, and_iff_right (Nat.le_of_not_lt enough), ← String.toList_inj,
      String.toList_ofList, eq_comm]

theorem bind_error_iff {e : Error} :
    bind text values = .error e ↔
      values.length < countMarkers text ∧ e = .tooFewValues (countMarkers text) values.length := by
  unfold bind
  split
  · rename_i short
    rw [Except.error.injEq, and_iff_right short, eq_comm]
  · rename_i enough
    refine iff_of_false (by simp) ?_
    exact fun failed => enough failed.1

theorem bind_take (covered : countMarkers text ≤ values.length) :
    bind text (values.take (countMarkers text)) = bind text values := by
  have exact : (values.take (countMarkers text)).length = countMarkers text := by
    rw [List.length_take, Nat.min_eq_left covered]
  unfold bind
  rw [if_neg (Nat.not_lt_of_le (Nat.le_of_eq exact.symm)), if_neg (Nat.not_lt_of_le covered)]
  exact congrArg (fun cs => Except.ok (String.ofList cs)) (bindChars_take covered)

theorem bind_surplus (covered : countMarkers text ≤ values.length) (more : List Scalar) :
    bind text (values ++ more) = bind text values := by
  have covered' : countMarkers text ≤ (values ++ more).length := by
    rw [List.length_append]
    exact Nat.le_add_right_of_le covered
  rw [← bind_take covered', List.take_append_of_le_length covered, bind_take covered]

theorem bind_append_ok_iff {back result : String} :
    bind (text ++ back) values = .ok result ↔
      ∃ front behind, bind text (values.take (countMarkers text)) = .ok front ∧
        bind back (values.drop (countMarkers text)) = .ok behind ∧ result = front ++ behind := by
  simp only [bind_ok_iff, countMarkers_append, String.toList_append, List.length_take,
    List.length_drop]
  constructor
  · rintro ⟨covered, bound⟩
    have front : countMarkers text ≤ values.length := Nat.le_of_add_right_le covered
    rw [bindChars_append_of_le front] at bound
    refine ⟨.ofList (bindChars text.toList (values.take (countMarkers text))),
      .ofList (bindChars back.toList (values.drop (countMarkers text))), ?_, ?_, ?_⟩
    · exact ⟨by omega, String.toList_ofList⟩
    · exact ⟨by omega, String.toList_ofList⟩
    · rw [← String.toList_inj, bound, String.toList_append, String.toList_ofList,
        String.toList_ofList]
      rfl
  · rintro ⟨front, behind, ⟨covered, bound⟩, ⟨covered', bound'⟩, rfl⟩
    have enough : countMarkers text ≤ values.length := by omega
    refine ⟨by omega, ?_⟩
    rw [String.toList_append, bound, bound', bindChars_append_of_le enough]
    rfl

/-- Text without markers may be added before binding or afterwards. -/
theorem bind_append_unmarked {suffix : String} (unmarked : countMarkers suffix = 0) (text : String)
    (values : List Scalar) :
    bind (text ++ suffix) values = (· ++ suffix) <$> bind text values := by
  have kept : ∀ values, bindChars suffix.toList values = suffix.toList :=
    bindChars_of_unmarked (countMarkers_eq_zero_iff.mp unmarked)
  have count : countMarkers (text ++ suffix) = countMarkers text := by
    rw [countMarkers_append, unmarked, Nat.add_zero]
  unfold bind
  rw [count]
  split
  · rfl
  · rename_i enough
    have covered : countMarkers text ≤ values.length := Nat.le_of_not_lt enough
    rw [String.toList_append, bindChars_append_of_le covered, bindChars_take covered, kept,
      String.ofList_append, String.ofList_toList]
    rfl

end Outcomes

/-- Binding fails exactly if the values are too few. Otherwise it puts the literals between the pieces
that the markers leave; further values and the markers in literals do not matter, and what follows the
text is bound to the values that the text leaves. -/
theorem bind_exact (text : String) (values : List Scalar) :
    (∀ e, bind text values = .error e ↔
        values.length < countMarkers text ∧
          e = .tooFewValues (countMarkers text) values.length) ∧
      (∀ result, bind text values = .ok result ↔
        countMarkers text ≤ values.length ∧
          result.toList = interleave (Text.splitChars marker text.toList) values) ∧
      (∀ more result, bind text values = .ok result ↔
        countMarkers text ≤ values.length ∧ bind text (values ++ more) = .ok result) ∧
      (∀ result, bind text values = .ok result →
        countMarkers result =
          ((values.take (countMarkers text)).map fun v => countMarkers v.literal).sum) ∧
      ∀ back result, bind (text ++ back) values = .ok result ↔
        ∃ front behind, bind text (values.take (countMarkers text)) = .ok front ∧
          bind back (values.drop (countMarkers text)) = .ok behind ∧ result = front ++ behind := by
  refine ⟨fun e => bind_error_iff, ?_, ?_, ?_, fun back result => bind_append_ok_iff⟩
  · intro result
    rw [bind_ok_iff]
    refine and_congr_right fun covered => ?_
    rw [bindChars_eq_interleave covered]
  · intro more result
    constructor
    · intro bound
      have covered := (bind_ok_iff.mp bound).1
      exact ⟨covered, (bind_surplus covered more).trans bound⟩
    · rintro ⟨covered, bound⟩
      exact (bind_surplus covered more).symm.trans bound
  · intro result bound
    obtain ⟨covered, same⟩ := bind_ok_iff.mp bound
    rw [countMarkers, same, count_bindChars covered]
    simp only [countMarkers, Scalar.toList_literal]

/-- A string with a marker of its own, and a value left over. -/
theorem bind_exact_markedString :
    let values : List Scalar := [.string "who?", .int 2, .null]
    bind "a = ? and b = ?" values = .ok "a = 'who?' and b = 2" ∧
      countMarkers "a = 'who?' and b = 2" =
        ((values.take 2).map fun v => countMarkers v.literal).sum := by
  intro values
  have bound : bind "a = ? and b = ?" values = .ok "a = 'who?' and b = 2" := rfl
  exact ⟨bound, (bind_exact _ values).2.2.2.1 _ bound⟩

namespace Statement

theorem finalize_eq (s : Statement) (allowFiltering : Bool) :
    s.finalize allowFiltering =
      if allowFiltering = true ∧ s.operation = .select then (· ++ " allow filtering") <$> s.bound
      else s.bound := by
  have unmarked : countMarkers " allow filtering" = 0 := by decide
  simp only [finalize, bound, bind_append_unmarked unmarked, Bool.and_eq_true, beq_iff_eq]

/-- Finalizing fails as binding does, and otherwise gives the bound text, behind which a select asks for
filtering where the settings allow it. -/
theorem finalize_exact (s : Statement) (c : Config) :
    (∀ e, s.finalize c.allowFiltering = .error e ↔ s.bound = .error e) ∧
      (∀ e, s.bound = .error e ↔ s.parameters.length < countMarkers s.text ∧
        e = .tooFewValues (countMarkers s.text) s.parameters.length) ∧
      (∀ result, s.finalize c.allowFiltering = .ok result ↔ ∃ text, s.bound = .ok text ∧
        result = if c.allowFiltering = true ∧ s.operation = .select then text ++ " allow filtering"
          else text) ∧
      bind (s.text ++ " allow filtering") s.parameters = (· ++ " allow filtering") <$> s.bound := by
  have asks := s.finalize_eq c.allowFiltering
  refine ⟨?_, fun e => bind_error_iff, ?_, bind_append_unmarked (by decide) s.text s.parameters⟩
  · intro e
    rw [asks]
    split
    · exact Fallible.map_eq_error_iff
    · exact Iff.rfl
  · intro result
    rw [asks]
    split
    · rw [Fallible.map_eq_ok_iff]
      exact exists_congr fun text => and_congr_right fun _ => eq_comm
    · constructor
      · exact fun bound => ⟨result, bound, rfl⟩
      · rintro ⟨text, bound, rfl⟩
        exact bound

end Statement
end CqlStatements
