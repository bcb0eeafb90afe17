import CqlStatements.Proofs.Runs
import CqlStatements.Toml.Text
import CqlStatements.Toml.Writer

/-!
# Strings read back from TOML text

A string between its quotes is spelled unit by unit: a unit stands for one character, and a quote may stand
for itself where a reader can tell it from the end. On one line no quote stands for itself. On several
lines at most two of them in a row do, so three are always the end, with up to two quotes of the string
in front. Whichever of the four forms a string takes, the whole of it comes back.
-/
namespace CqlStatements.Toml

section Units

/-- One more character in front of what a string was read to. -/
def prepend (c : Char) (read : Option (List Char × List Char)) : Option (List Char × List Char) :=
  read.map fun (s, rest) => (c :: s, rest)

/-- How a character other than a quote is written in a string with escapes. -/
def writtenChar (lines : Bool) (c : Char) : List Char :=
  if c = '\x08' then ['\\', 'b']
  else if c = '\t' then ['\\', 't']
  else if c = '\n' then if lines then [c] else ['\\', 'n']
  else if c = '\x0c' then ['\\', 'f']
  else if c = '\r' then ['\\', 'r']
  else if c = '\\' then ['\\', '\\']
  else if isControl c then unicodeEscape c.toNat
  else [c]

/-- The unit of a character in a string with escapes. -/
def escapedChar (lines : Bool) (c : Char) : List Char :=
  if c = '"' then ['\\', '"'] else writtenChar lines c

theorem escapeChars_cons {lines : Bool} {allowed run : Nat} {c : Char} (other : c ≠ '"' ∨ ¬ run < allowed)
    (s : List Char) : escapeChars lines allowed run (c :: s) =
      escapedChar lines c ++ escapeChars lines allowed 0 s := by
  rw [escapeChars, escapedChar]
  by_cases quote : c = '"'
  · rw [if_pos quote, if_pos quote, if_neg (other.resolve_left (not_not_intro quote))]
    rfl
  · rw [if_neg quote, if_neg quote]
    rfl

theorem isPlain_of_not_isControl {c : Char} (tab : c ≠ '\t') (line : c ≠ '\n')
    (shown : isControl c = false) : isPlain c = true := by
  simp only [isControl, Bool.or_eq_false_iff, Bool.and_eq_false_iff, decide_eq_false_iff_not,
    bne_eq_false_iff_eq, beq_eq_false_iff_ne, tab, line, or_false] at shown
  simp only [isPlain, Bool.or_eq_true, Bool.and_eq_true, decide_eq_true_eq, bne_iff_ne]
  omega

section Reading

variable {lines : Bool}

/-- An escape of one letter. -/
theorem readBasic_escape {e c : Char} (letter : escaped? e = some c) (cs : List Char) :
    readBasic lines false ('\\' :: e :: cs) = prepend c (readBasic lines false cs) := by
  have number : e ≠ 'u' ∧ e ≠ 'U' := by
    constructor <;> (rintro rfl; cases letter)
  have inside : (afterBreak? (skipBlanks (e :: cs))).isSome = false := by
    have shown : ¬ isBlank e = true := by
      intro blank
      simp only [isBlank, Bool.or_eq_true, beq_iff_eq] at blank
      rcases blank with rfl | rfl <;> cases letter
    rw [skipBlanks, List.dropWhile_cons_of_neg shown, afterBreak?.eq_def]
    split
    · rename_i same
      obtain rfl : e = '\n' := (List.cons.inj same).1
      cases letter
    · rename_i same
      obtain rfl : e = '\r' := (List.cons.inj same).1
      cases letter
    · rfl
  rw [readBasic.eq_def]
  simp only [Bool.false_and, Bool.false_eq_true, if_false, Char.reduceEq, if_true, inside,
    Bool.and_false, number, letter, Option.bind_eq_bind, Option.bind_some, prepend]
  cases readBasic lines false cs <;> rfl

/-- An escape by number. -/
theorem readBasic_unicodeEscape {c : Char} (control : isControl c = true) (cs : List Char) :
    readBasic lines false (unicodeEscape c.toNat ++ cs) = prepend c (readBasic lines false cs) := by
  have small : c.toNat < 128 := by
    simp only [isControl, Bool.or_eq_true, Bool.and_eq_true, decide_eq_true_eq, beq_iff_eq] at control
    omega
  have hex : ∀ n : Fin 128, Integer.ofHex?
      ['0', '0', (n.val / 16).digitChar.toUpper, (n.val % 16).digitChar.toUpper] = some n.val := by
    decide
  have number := hex ⟨c.toNat, small⟩
  have value : scalarValue? c.toNat = some c := by
    rw [scalarValue?, if_pos (.inl (by omega)), Char.ofNat_toNat]
  have inside (more : List Char) : (afterBreak? (skipBlanks ('u' :: more))).isSome = false := rfl
  simp only [unicodeEscape, List.cons_append, List.nil_append]
  rw [readBasic.eq_def]
  simp only [Bool.false_and, Bool.false_eq_true, if_false, Char.reduceEq, if_true, inside,
    Bool.and_false, number, value, Option.bind_eq_bind, Option.bind_some, prepend]
  cases readBasic lines false cs <;> rfl

theorem readBasic_line (cs : List Char) :
    readBasic true false ('\n' :: cs) = prepend '\n' (readBasic true false cs) := by
  rw [readBasic.eq_def]
  rfl

theorem readBasic_plain {c : Char} (plain : isPlain c = true)
    (other : c ≠ '"' ∧ c ≠ '\\') (cs : List Char) :
    readBasic lines false (c :: cs) = prepend c (readBasic lines false cs) := by
  have line : c ≠ '\n' ∧ c ≠ '\r' := by
    constructor <;> (rintro rfl; cases plain)
  rw [readBasic.eq_def]
  simp only [Bool.false_and, Bool.false_eq_true, if_false, line, other, plain, if_true]
  rfl

theorem readBasic_writtenChar {c : Char} (quote : c ≠ '"') (cs : List Char) :
    readBasic lines false (writtenChar lines c ++ cs) = prepend c (readBasic lines false cs) := by
  unfold writtenChar
  split
  · rename_i same
    subst same
    exact readBasic_escape rfl cs
  split
  · rename_i same
    subst same
    exact readBasic_escape rfl cs
  split
  · rename_i same
    subst same
    cases lines with
    | true => exact readBasic_line cs
    | false => exact readBasic_escape rfl cs
  iterate 3
    split
    · rename_i same
      subst same
      exact readBasic_escape rfl cs
  split
  · rename_i control
    exact readBasic_unicodeEscape control cs
  · rename_i tab line _ _ escape shown
    have plain := isPlain_of_not_isControl tab line (Bool.eq_false_iff.mpr shown)
    exact readBasic_plain plain ⟨quote, escape⟩ cs

theorem readBasic_escapedChar (c : Char) (cs : List Char) :
    readBasic lines false (escapedChar lines c ++ cs) = prepend c (readBasic lines false cs) := by
  unfold escapedChar
  split
  · rename_i same
    subst same
    exact readBasic_escape rfl cs
  · rename_i quote
    exact readBasic_writtenChar quote cs

end Reading

end Units

section Lines

/-- On one line every quote is escaped. -/
theorem escapeChars_line (s : List Char) : escapeChars false 0 0 s = s.flatMap (escapedChar false) := by
  induction s with
  | nil => rfl
  | cons c s ih => rw [escapeChars_cons (.inr (Nat.lt_irrefl 0)), ih, List.flatMap_cons]

theorem readBasic_flatMap (s rest : List Char) :
    readBasic false false (s.flatMap (escapedChar false) ++ '"' :: rest) = some (s, rest) := by
  induction s with
  | nil =>
      rw [List.flatMap_nil, List.nil_append, readBasic.eq_def]
      rfl
  | cons c s ih =>
      rw [List.flatMap_cons, List.append_assoc, readBasic_escapedChar, ih]
      rfl

theorem readLiteral_plain {lines : Bool} {c : Char} (plain : isPlain c = true) (quote : c ≠ '\x27')
    (cs : List Char) : readLiteral lines (c :: cs) = prepend c (readLiteral lines cs) := by
  have line : c ≠ '\n' ∧ c ≠ '\r' := by
    constructor <;> (rintro rfl; cases plain)
  rw [readLiteral.eq_def]
  simp only [if_false, line, quote, plain, if_true]
  rfl

theorem readLiteral_append {s : List Char} (plain : ∀ c ∈ s, isPlain c = true ∧ c ≠ '\x27')
    (rest : List Char) : readLiteral false (s ++ '\x27' :: rest) = some (s, rest) := by
  induction s with
  | nil =>
      rw [List.nil_append, readLiteral.eq_def]
      rfl
  | cons c s ih =>
      rw [List.forall_mem_cons] at plain
      rw [List.cons_append, readLiteral_plain plain.1.1 plain.1.2, ih plain.2]
      rfl

end Lines

section Closing

variable {quote : Char} {rest : List Char}

theorem closing?_of_short {cs : List Char} (short : (cs.takeWhile (· == quote)).length ≤ 2) :
    closing? quote cs = none := by
  rw [closing?]
  exact if_pos (by omega)

/-- Up to two quotes in front of three others are left to the string. -/
theorem closing?_end {count : Nat} (few : count ≤ 2) (stop : rest.head? ≠ some quote) :
    closing? quote (List.replicate count quote ++ (List.replicate 3 quote ++ rest)) =
      some (List.replicate count quote, rest) := by
  have behind : ∀ c ∈ rest.head?, (c == quote) = false := by
    intro c head
    rw [beq_eq_false_iff_ne]
    intro same
    rw [same] at head
    exact stop head
  rw [← List.append_assoc, List.replicate_append_replicate]
  have run : ((List.replicate (count + 3) quote ++ rest).takeWhile (· == quote)).length =
      count + 3 := by
    rw [Text.takeWhile_run (by simp) behind, List.length_replicate]
  have kept : min (count + 3 - 3) 2 = count := by omega
  have taken : min (count + 3) 5 = (List.replicate (count + 3) quote).length := by
    rw [List.length_replicate]
    omega
  simp only [closing?, run, kept, taken, List.drop_left]
  exact if_neg (by omega)

/-- A text spells a string unit by unit, no more than two quotes in a row standing for themselves; `run`
counts those just written. -/
inductive Spells (quote : Char) (Unit : Char → List Char → Prop) :
    Nat → List Char → List Char → Prop
  | nil {run} : Spells quote Unit run [] []
  | unit {run c cs s body} : Unit c cs → Spells quote Unit 0 s body →
      Spells quote Unit run (c :: s) (cs ++ body)
  | quote {run s body} : run < 2 → Spells quote Unit (run + 1) s body →
      Spells quote Unit run (quote :: s) (quote :: body)

/-- What a reader of strings on several lines does with a unit and with a quote. -/
structure Reader (quote : Char) (Unit : Char → List Char → Prop)
    (read : List Char → Option (List Char × List Char)) : Prop where
  readUnit : ∀ {c cs}, Unit c cs → ∀ more, read (cs ++ more) = prepend c (read more)
  readQuote : ∀ more, read (quote :: more) =
    (closing? quote (quote :: more)).or (prepend quote (read more))
  begins : ∀ {c cs}, Unit c cs →
    ∃ d ds, cs = d :: ds ∧ d ≠ quote ∧ d ≠ '\r' ∧ (d = '\n' → c = '\n')

variable {Unit : Char → List Char → Prop} {read : List Char → Option (List Char × List Char)}
variable {run : Nat} {s body : List Char} (spells : Spells quote Unit run s body)
variable (reader : Reader quote Unit read)
include spells reader

/-- The rest of a string is nothing but quotes, or it goes on before there are three of them. -/
theorem Spells.quotes (short : run ≤ 2) :
    (∃ count, s = List.replicate count quote ∧ body = List.replicate count quote ∧
      run + count ≤ 2) ∨
    ∀ more, ((body ++ more).takeWhile (· == quote)).length + run ≤ 2 := by
  induction spells with
  | nil => exact .inl ⟨0, rfl, rfl, short⟩
  | unit stands _ _ =>
      obtain ⟨d, ds, rfl, other, -⟩ := reader.begins stands
      refine .inr fun more => ?_
      rw [List.append_assoc, List.cons_append, List.takeWhile_cons_of_neg (by simpa using other)]
      simpa using short
  | quote few _ ih =>
      rcases ih few with ⟨count, rfl, rfl, total⟩ | on
      · exact .inl ⟨count + 1, rfl, rfl, by omega⟩
      · refine .inr fun more => ?_
        have behind := on more
        rw [List.cons_append, List.takeWhile_cons_of_pos (by simp), List.length_cons]
        omega

/-- A spelled string is read up to the three quotes behind it. -/
theorem Spells.read_append (short : run ≤ 2) (stop : rest.head? ≠ some quote) :
    read (body ++ (List.replicate 3 quote ++ rest)) = some (s, rest) := by
  induction spells with
  | nil =>
      have close : closing? quote (quote :: quote :: quote :: rest) = some ([], rest) :=
        closing?_end (Nat.zero_le 2) stop
      have quotes := reader.readQuote (quote :: quote :: rest)
      rw [close] at quotes
      exact quotes
  | unit stands _ ih =>
      rw [List.append_assoc, reader.readUnit stands, ih (Nat.zero_le 2)]
      rfl
  | quote few others ih =>
      rw [List.cons_append, reader.readQuote, ih few]
      rcases (Spells.quote few others).quotes reader short with ⟨count, same, text, total⟩ | on
      · have close := closing?_end (Nat.le_trans (Nat.le_add_left count _) total) stop
        rw [← text, List.cons_append] at close
        rw [close, same, ← text]
        rfl
      · rw [← List.cons_append, closing?_of_short (Nat.le_trans (Nat.le_add_right _ _) (on _))]
        rfl

end Closing

section SeveralLines

/-- A unit of a string without escapes. -/
def LiteralUnit (c : Char) (cs : List Char) : Prop :=
  cs = [c] ∧ c ≠ '\x27' ∧ (c = '\n' ∨ isPlain c = true)

/-- A unit begins with a backslash or is its character. -/
theorem escapedChar_first (lines : Bool) (c : Char) : ∃ d ds, escapedChar lines c = d :: ds ∧
    (d = '\\' ∨ d = c ∧ c ≠ '"' ∧ c ≠ '\r') := by
  unfold escapedChar
  split
  · exact ⟨_, _, rfl, .inl rfl⟩
  rename_i quote
  unfold writtenChar
  iterate 2
    split
    · exact ⟨_, _, rfl, .inl rfl⟩
  split
  · rename_i line
    cases lines with
    | true => exact ⟨_, _, rfl, .inr ⟨rfl, quote, by rw [line]; decide⟩⟩
    | false => exact ⟨_, _, rfl, .inl rfl⟩
  iterate 3
    split
    · exact ⟨_, _, rfl, .inl rfl⟩
  split
  · exact ⟨_, _, rfl, .inl rfl⟩
  · rename_i feed _ _
    exact ⟨_, _, rfl, .inr ⟨rfl, quote, feed⟩⟩

theorem reader_readBasic :
    Reader '"' (fun c cs => cs = escapedChar true c) (readBasic true false) where
  readUnit := by
    rintro c cs rfl more
    exact readBasic_escapedChar c more
  readQuote := by
    intro more
    rw [readBasic.eq_def]
    simp only [Bool.false_and, Bool.false_eq_true, if_false, Char.reduceEq, if_true]
    cases closing? '"' ('"' :: more) <;> rfl
  begins := by
    rintro c cs rfl
    obtain ⟨d, ds, first, rfl | ⟨rfl, quote, feed⟩⟩ := escapedChar_first true c
    · exact ⟨_, ds, first, by decide, by decide, fun same => absurd same (by decide)⟩
    · exact ⟨_, ds, first, quote, feed, id⟩

theorem reader_readLiteral : Reader '\x27' LiteralUnit (readLiteral true) where
  readUnit := by
    rintro c cs ⟨rfl, quote, rfl | plain⟩ more
    · rw [List.singleton_append, readLiteral.eq_def]
      rfl
    · exact readLiteral_plain plain quote more
  readQuote := by
    intro more
    rw [readLiteral.eq_def]
    simp only [if_false, Char.reduceEq, if_true]
    cases closing? '\x27' ('\x27' :: more) <;> rfl
  begins := by
    rintro c cs ⟨rfl, quote, unit⟩
    refine ⟨c, [], rfl, quote, ?_, id⟩
    rintro rfl
    revert unit
    decide

/-- With escapes a third quote in a row is escaped. -/
theorem spells_escapeChars (run : Nat) (s : List Char) :
    Spells '"' (fun c cs => cs = escapedChar true c) run s (escapeChars true 2 run s) := by
  induction s generalizing run with
  | nil => exact .nil
  | cons c s ih =>
      by_cases kept : c = '"' ∧ run < 2
      · obtain ⟨rfl, few⟩ := kept
        rw [escapeChars, if_pos rfl, if_pos few]
        exact .quote few (ih (run + 1))
      · rw [escapeChars_cons (Decidable.not_and_iff_or_not.mp kept)]
        exact .unit rfl (ih 0)

section Runs

/-- The run of a character and the longest one, with one more character. -/
def countRun (c : Char) (counts : Nat × Nat) (next : Char) : Nat × Nat :=
  let current := if next = c then counts.1 + 1 else 0
  (current, max counts.2 current)

theorem longestRun_eq (c : Char) (cs : List Char) :
    longestRun c cs = (cs.foldl (countRun c) (0, 0)).2 := rfl

theorem longest_le_foldl (c : Char) (cs : List Char) (counts : Nat × Nat) :
    counts.2 ≤ (cs.foldl (countRun c) counts).2 := by
  induction cs generalizing counts with
  | nil => exact Nat.le_refl _
  | cons next cs ih => exact Nat.le_trans (Nat.le_max_left _ _) (ih (countRun c counts next))

/-- Where a run goes on it is no longer than the longest one. -/
theorem run_le_foldl (c : Char) (cs : List Char) (counts : Nat × Nat) :
    counts.1 + 1 ≤ ((c :: cs).foldl (countRun c) counts).2 := by
  have counted : countRun c counts c = (counts.1 + 1, max counts.2 (counts.1 + 1)) := by
    rw [countRun, if_pos rfl]
  rw [List.foldl_cons, counted]
  exact Nat.le_trans (Nat.le_max_right counts.2 _) (longest_le_foldl c cs (counts.1 + 1, _))

theorem notMem_of_foldl {c : Char} {cs : List Char} {counts : Nat × Nat}
    (none : (cs.foldl (countRun c) counts).2 = 0) : c ∉ cs := by
  induction cs generalizing counts with
  | nil => exact List.not_mem_nil
  | cons next cs ih =>
      rw [List.mem_cons, not_or]
      refine ⟨?_, ih none⟩
      rintro rfl
      have := run_le_foldl c cs counts
      omega

/-- Without escapes a string is spelled by itself if no run of quotes is too long. -/
theorem spells_literal {s : List Char} (units : ∀ c ∈ s, c = '\n' ∨ isPlain c = true)
    {counts : Nat × Nat} (short : (s.foldl (countRun '\x27') counts).2 ≤ 2) :
    Spells '\x27' LiteralUnit counts.1 s s := by
  induction s generalizing counts with
  | nil => exact .nil
  | cons c s ih =>
      rw [List.forall_mem_cons] at units
      have others := ih units.2 short
      by_cases quote : c = '\x27'
      · subst quote
        have few := run_le_foldl '\x27' s counts
        rw [countRun, if_pos rfl] at others
        exact .quote (by omega) others
      · rw [countRun, if_neg quote] at others
        exact .unit ⟨rfl, quote, units.1⟩ others

end Runs

/-- A spelled string without line breaks does not begin with one. -/
theorem Spells.head {quote : Char} {Unit : Char → List Char → Prop} {run : Nat} {s body : List Char}
    {read : List Char → Option (List Char × List Char)} (spells : Spells quote Unit run s body)
    (reader : Reader quote Unit read) (shown : quote ≠ '\n' ∧ quote ≠ '\r') (rest : List Char)
    (unbroken : '\n' ∉ s) :
    ∀ c, (body ++ (List.replicate 3 quote ++ rest)).head? = some c → c ≠ '\n' ∧ c ≠ '\r' := by
  intro c same
  cases spells with
  | nil =>
      obtain rfl : quote = c := Option.some.inj same
      exact shown
  | quote _ _ =>
      obtain rfl : quote = c := Option.some.inj same
      exact shown
  | unit stands _ =>
      obtain ⟨d, ds, rfl, -, feed, line⟩ := reader.begins stands
      obtain rfl : d = c := Option.some.inj same
      exact ⟨fun broken => unbroken (line broken ▸ List.mem_cons_self), feed⟩

/-- A body that does not begin with a line break keeps its front. -/
theorem dropBreak_of_head {cs : List Char} (kept : ∀ c, cs.head? = some c → c ≠ '\n' ∧ c ≠ '\r') :
    dropBreak cs = cs := by
  rw [dropBreak, afterBreak?.eq_def]
  split
  · exact absurd rfl (kept '\n' rfl).1
  · exact absurd rfl (kept '\r' rfl).2
  · rfl

/-- The line break behind the opening quotes is dropped, and no other. -/
theorem dropBreak_append {s cs : List Char}
    (kept : '\n' ∉ s → ∀ c, cs.head? = some c → c ≠ '\n' ∧ c ≠ '\r') :
    dropBreak ((if s.contains '\n' then ['\n'] else []) ++ cs) = cs := by
  by_cases broken : '\n' ∈ s
  · rw [if_pos (List.contains_iff_mem.mpr broken)]
    rfl
  · rw [if_neg (mt List.contains_iff_mem.mp broken), List.nil_append]
    exact dropBreak_of_head (kept broken)

end SeveralLines

section Forms

variable {s rest : List Char}

/-- Behind the opening quote of a string on one line there are no two more. -/
theorem append_ne_quotes {quote : Char} {body : List Char} (first : body.head? ≠ some quote)
    (stop : rest.head? ≠ some quote) (more : List Char) :
    body ++ quote :: rest ≠ quote :: quote :: more := by
  intro same
  cases body with
  | nil => exact stop (congrArg List.head? (List.cons.inj same).2)
  | cons c body => exact first (congrArg some (List.cons.inj same).1)

theorem readString?_basicLine (stop : rest.head? ≠ some '"') :
    readString? (basicLine s ++ rest) = some (String.ofList s, rest) := by
  have text : basicLine s ++ rest = '"' :: (s.flatMap (escapedChar false) ++ '"' :: rest) := by
    simp only [basicLine, escapeChars_line, List.cons_append, List.append_assoc, List.nil_append]
  have first : (s.flatMap (escapedChar false)).head? ≠ some '"' := by
    cases s with
    | nil => simp
    | cons c s =>
        obtain ⟨d, ds, unit, start⟩ := escapedChar_first false c
        rw [List.flatMap_cons, unit]
        rintro same
        obtain rfl : d = '"' := Option.some.inj same
        rcases start with slash | ⟨rfl, quote, -⟩
        · exact absurd slash (by decide)
        · exact quote rfl
  rw [text, readString?]
  · rw [readBasic_flatMap]
    rfl
  · exact append_ne_quotes first stop

theorem readString?_literalLine (plain : ∀ c ∈ s, isPlain c = true ∧ c ≠ '\x27')
    (stop : rest.head? ≠ some '\x27') :
    readString? (literalLine s ++ rest) = some (String.ofList s, rest) := by
  have text : literalLine s ++ rest = '\x27' :: (s ++ '\x27' :: rest) := by
    simp only [literalLine, List.cons_append, List.append_assoc, List.nil_append]
  have first : s.head? ≠ some '\x27' := fun same =>
    (plain '\x27' (List.mem_of_mem_head? same)).2 rfl
  rw [text, readString?]
  · rw [readLiteral_append plain]
    rfl
  · exact append_ne_quotes first stop

theorem betweenTriple_append (quote : Char) (s body rest : List Char) :
    betweenTriple quote s body ++ rest = quote :: quote :: quote ::
      ((if s.contains '\n' then ['\n'] else []) ++ (body ++ (List.replicate 3 quote ++ rest))) := by
  simp only [betweenTriple, List.append_assoc]
  rfl

theorem readString?_basicLines (stop : rest.head? ≠ some '"') :
    readString? (basicLines s ++ rest) = some (String.ofList s, rest) := by
  have spells := spells_escapeChars 0 s
  rw [basicLines, betweenTriple_append, readString?,
    dropBreak_append (spells.head reader_readBasic (by decide) rest),
    spells.read_append reader_readBasic (Nat.zero_le 2) stop]
  rfl

theorem readString?_literalLines (units : ∀ c ∈ s, c = '\n' ∨ isPlain c = true)
    (short : longestRun '\x27' s ≤ 2) (stop : rest.head? ≠ some '\x27') :
    readString? (literalLines s ++ rest) = some (String.ofList s, rest) := by
  rw [longestRun_eq] at short
  have spells := spells_literal units short
  rw [literalLines, betweenTriple_append, readString?,
    dropBreak_append (spells.head reader_readLiteral (by decide) rest),
    spells.read_append reader_readLiteral (Nat.zero_le 2) stop]
  rfl

/-- A written string is read back, whatever it holds. -/
theorem readString?_stringChars (text : String) {rest : List Char} (double : rest.head? ≠ some '"')
    (single : rest.head? ≠ some '\x27') :
    readString? (stringChars text ++ rest) = some (text, rest) := by
  have units (shown : text.toList.any isControl = false) :
      ∀ c ∈ text.toList, c = '\n' ∨ isPlain c = true := by
    intro c member
    have control : isControl c = false := Bool.eq_false_iff.mpr (List.any_eq_false.mp shown c member)
    by_cases line : c = '\n'
    · exact .inl line
    · by_cases tab : c = '\t'
      · exact .inr (tab ▸ rfl)
      · exact .inr (isPlain_of_not_isControl tab line control)
  have whole : String.ofList text.toList = text := String.ofList_toList
  have basicLine := readString?_basicLine (s := text.toList) double
  have basicLines := readString?_basicLines (s := text.toList) double
  rw [whole] at basicLine basicLines
  unfold stringChars
  dsimp only
  split
  · exact basicLine
  split
  · rename_i allowed
    simp only [Bool.and_eq_true, Bool.not_eq_true', decide_eq_true_eq] at allowed
    obtain ⟨⟨shown, none⟩, line⟩ := allowed
    have plain : ∀ c ∈ text.toList, isPlain c = true ∧ c ≠ '\x27' := by
      intro c member
      rw [longestRun_eq] at none
      have absent := notMem_of_foldl none
      have unbroken : c ≠ '\n' := by
        rintro rfl
        simp [member] at line
      refine ⟨(units shown c member).resolve_left unbroken, ?_⟩
      rintro rfl
      exact absent member
    have literalLine := readString?_literalLine plain single
    rw [whole] at literalLine
    exact literalLine
  split
  · exact basicLines
  split
  · rename_i allowed
    simp only [Bool.and_eq_true, Bool.not_eq_true', decide_eq_true_eq] at allowed
    have literalLines := readString?_literalLines (units allowed.1) allowed.2 single
    rw [whole] at literalLines
    exact literalLines
  split
  · exact basicLine
  · exact basicLines

end Forms

end CqlStatements.Toml
