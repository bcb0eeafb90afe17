import CqlStatements.Json.Reader
import CqlStatements.Json.Writer

/-!
# Strings of JSON

A grammar says which texts spell the pieces of a string: a character stands for itself or is escaped, by a
letter or by its number, and an escape by number may also be half of a surrogate pair. What spells a string
is read as this string, and nothing else is read. Of the texts that spell a string the writer takes one
without halves, so a written string always has a text.
-/
namespace CqlStatements.Json

/-- A text, without the quotes around it, spells the pieces of a string. -/
inductive PiecesText : List Piece → List Char → Prop
  | nil : PiecesText [] []
  | plain {c : Char} {pieces : List Piece} {cs : List Char} : c ≠ '"' → c ≠ '\\' → ¬ c.toNat < 0x20 →
      PiecesText pieces cs → PiecesText (.char c :: pieces) (c :: cs)
  | escape {e c : Char} {pieces : List Piece} {cs : List Char} : escaped? e = some c →
      PiecesText pieces cs → PiecesText (.char c :: pieces) ('\\' :: e :: cs)
  | number {h₁ h₂ h₃ h₄ : Char} {unit : Nat} {pieces : List Piece} {cs : List Char} :
      Integer.ofHex? [h₁, h₂, h₃, h₄] = some unit → PiecesText pieces cs →
      PiecesText (pieceOfUnit unit :: pieces) ('\\' :: 'u' :: h₁ :: h₂ :: h₃ :: h₄ :: cs)

/-- A text between quotes spells a string, or one that has no text because of half of a pair. -/
def StringText (text : Option String) (cs : List Char) : Prop :=
  ∃ pieces body, PiecesText pieces body ∧ (joinPieces? pieces).map String.ofList = text ∧
    cs = '"' :: (body ++ ['"'])

section Reading

/-- One more piece in front of what a string was read to. -/
def prepend (piece : Piece) (read : Option (List Piece × List Char)) :
    Option (List Piece × List Char) :=
  read.map fun (pieces, rest) => (piece :: pieces, rest)

theorem escaped?_ne_u {e c : Char} (h : escaped? e = some c) : e ≠ 'u' := by
  rintro rfl
  cases h

theorem readPieces_escape {e c : Char} (h : escaped? e = some c) (cs : List Char) :
    readPieces ('\\' :: e :: cs) = prepend (.char c) (readPieces cs) := by
  rw [readPieces.eq_def]
  simp only [Char.reduceEq, if_false, if_true, escaped?_ne_u h, h, Option.bind_eq_bind,
    Option.bind_some, prepend]
  cases readPieces cs <;> rfl

theorem readPieces_number {h₁ h₂ h₃ h₄ : Char} {unit : Nat}
    (hex : Integer.ofHex? [h₁, h₂, h₃, h₄] = some unit) (cs : List Char) :
    readPieces ('\\' :: 'u' :: h₁ :: h₂ :: h₃ :: h₄ :: cs) =
      prepend (pieceOfUnit unit) (readPieces cs) := by
  rw [readPieces.eq_def]
  simp only [Char.reduceEq, if_false, if_true, hex, Option.bind_eq_bind, Option.bind_some, prepend]
  cases readPieces cs <;> rfl

theorem readPieces_plain {c : Char} (quote : c ≠ '"') (escape : c ≠ '\\') (h : ¬ c.toNat < 0x20)
    (cs : List Char) : readPieces (c :: cs) = prepend (.char c) (readPieces cs) := by
  rw [readPieces.eq_def]
  simp only [quote, escape, h, if_false, Option.bind_eq_bind, prepend]
  cases readPieces cs <;> rfl

theorem PiecesText.read_append {pieces : List Piece} {cs : List Char} (h : PiecesText pieces cs)
    (rest : List Char) : readPieces (cs ++ '"' :: rest) = some (pieces, rest) := by
  induction h with
  | nil =>
      rw [List.nil_append, readPieces.eq_def]
      rfl
  | plain quote escape shown _ ih =>
      rw [List.cons_append, readPieces_plain quote escape shown, ih]
      rfl
  | escape letter _ ih =>
      rw [List.cons_append, List.cons_append, readPieces_escape letter, ih]
      rfl
  | number hex _ ih =>
      simp only [List.cons_append]
      rw [readPieces_number hex, ih]
      rfl

theorem piecesText_of_readPieces {cs rest : List Char} {pieces : List Piece}
    (read : readPieces cs = some (pieces, rest)) :
    ∃ text, PiecesText pieces text ∧ cs = text ++ '"' :: rest := by
  fun_induction readPieces cs generalizing pieces with
  | case1 | case3 | case5 | case7 => cases read
  | case2 cs =>
      obtain ⟨rfl, rfl⟩ := Prod.mk.inj (Option.some.inj read)
      exact ⟨[], .nil, rfl⟩
  | case4 h₁ h₂ h₃ h₄ cs _ ih =>
      obtain ⟨unit, hex, read⟩ := Option.bind_eq_some_iff.mp read
      obtain ⟨⟨others, behind⟩, front, read⟩ := Option.bind_eq_some_iff.mp read
      obtain ⟨rfl, rfl⟩ := Prod.mk.inj (Option.some.inj read)
      obtain ⟨text, spelled, rfl⟩ := ih front
      exact ⟨_, .number hex spelled, rfl⟩
  | case6 e cs _ _ ih =>
      obtain ⟨c, letter, read⟩ := Option.bind_eq_some_iff.mp read
      obtain ⟨⟨others, behind⟩, front, read⟩ := Option.bind_eq_some_iff.mp read
      obtain ⟨rfl, rfl⟩ := Prod.mk.inj (Option.some.inj read)
      obtain ⟨text, spelled, rfl⟩ := ih front
      exact ⟨_, .escape letter spelled, rfl⟩
  | case8 c cs quote escape shown ih =>
      obtain ⟨⟨others, behind⟩, front, read⟩ := Option.bind_eq_some_iff.mp read
      obtain ⟨rfl, rfl⟩ := Prod.mk.inj (Option.some.inj read)
      obtain ⟨text, spelled, rfl⟩ := ih front
      exact ⟨_, .plain quote escape shown spelled, rfl⟩

/-- A string is read behind its opening quote. -/
theorem StringText.read_append {text : Option String} {cs : List Char} (h : StringText text cs)
    (rest : List Char) : ∃ tail, cs = '"' :: tail ∧ readText (tail ++ rest) = some (text, rest) := by
  obtain ⟨pieces, body, spelled, rfl, rfl⟩ := h
  refine ⟨_, rfl, ?_⟩
  rw [List.append_assoc, List.singleton_append, readText, spelled.read_append]
  rfl

theorem stringText_of_readText {cs rest : List Char} {text : Option String}
    (read : readText cs = some (text, rest)) :
    ∃ body, StringText text ('"' :: body) ∧ cs = body ++ rest := by
  obtain ⟨⟨pieces, behind⟩, pieced, joined⟩ := Option.map_eq_some_iff.mp read
  obtain ⟨rfl, rfl⟩ := Prod.mk.inj joined
  obtain ⟨body, spelled, rfl⟩ := piecesText_of_readPieces pieced
  exact ⟨body ++ ['"'], ⟨pieces, body, spelled, rfl, rfl⟩, by
    rw [List.append_assoc, List.singleton_append]⟩

end Reading

section Written

/-- The number of a control character is read back from its escape. -/
theorem ofHex?_unicodeEscape : ∀ n : Fin 32, Integer.ofHex?
    ['0', '0', (n.val / 16).digitChar, (n.val % 16).digitChar] = some n.val := by
  decide

theorem pieceOfUnit_control {c : Char} (h : c.toNat < 0x20) : pieceOfUnit c.toNat = .char c := by
  have low : ¬ 0xD800 ≤ c.toNat := by omega
  have high : ¬ 0xDC00 ≤ c.toNat := by omega
  simp only [pieceOfUnit, isHighHalf, isLowHalf, low, high, decide_false, Bool.false_and,
    Bool.or_false, Bool.false_eq_true, if_false, Char.ofNat_toNat]

/-- A character is written as one piece. -/
theorem PiecesText.escapeChar {pieces : List Piece} {cs : List Char} (h : PiecesText pieces cs)
    (c : Char) : PiecesText (.char c :: pieces) (escapeChar c ++ cs) := by
  unfold Json.escapeChar
  iterate 7
    split
    · rename_i same
      subst same
      exact .escape rfl h
  split
  · rename_i control
    rw [← pieceOfUnit_control control]
    exact .number (ofHex?_unicodeEscape ⟨c.toNat, control⟩) h
  · rename_i quote escape _ _ _ _ _ shown
    exact .plain quote escape shown h

theorem joinPieces?_chars (s : List Char) : joinPieces? (s.map .char) = some s := by
  induction s with
  | nil => rfl
  | cons c s ih => rw [List.map_cons, joinPieces?, ih, Option.map_some]

theorem stringText_quoteChars (s : String) : StringText (some s) (quoteChars s) := by
  have written : PiecesText (s.toList.map .char) (s.toList.flatMap escapeChar) := by
    generalize s.toList = cs
    induction cs with
    | nil => exact .nil
    | cons c cs ih => exact ih.escapeChar c
  refine ⟨_, _, written, ?_, rfl⟩
  rw [joinPieces?_chars, Option.map_some, String.ofList_toList]

end Written

end CqlStatements.Json
