import CqlStatements.Proofs.Toml.Values

/-!
# Documents read back

Written entries stand one a line, each behind a bare key. A line begins with its key, so it is no header
and is not passed over, and the value behind the equals sign ends with the line. Where no key is written
twice the lines make up the entries again, in their order.
-/
namespace CqlStatements.Toml

/-- A key that is written without quotes. -/
def Bare (key : String) : Prop := key.toList ≠ [] ∧ key.toList.all isBareKeyChar = true

instance : DecidablePred Bare := fun key =>
  inferInstanceAs (Decidable (key.toList ≠ [] ∧ key.toList.all isBareKeyChar = true))

/-- An entry that can be written. -/
structure Writable (entry : String × Toml) : Prop where
  bare : Bare entry.1
  written : Written maxDepth entry.2

section Keys

variable {entries : Entries} {key : String} {value : Toml}

/-- A key that is not repeated belongs to one value. -/
theorem lookup_of_mem (distinct : (entries.map Prod.fst).Nodup) (member : (key, value) ∈ entries) :
    entries.lookup key = some value := by
  induction entries with
  | nil => cases member
  | cons entry entries ih =>
      rw [List.map_cons, List.nodup_cons] at distinct
      rw [List.lookup_cons]
      rcases List.mem_cons.mp member with rfl | later
      · simp
      · have other : (key == entry.1) = false := by
          rw [beq_eq_false_iff_ne]
          intro same
          rw [← same] at distinct
          exact distinct.1 (List.mem_map_of_mem later)
        rw [other]
        exact ih distinct.2 later

theorem lookup_of_not_mem (absent : key ∉ entries.map Prod.fst) : entries.lookup key = none := by
  rw [List.lookup_eq_none_iff]
  intro entry member
  rw [bne_iff_ne]
  rintro rfl
  exact absent (List.mem_map_of_mem member)

end Keys

section Lines

theorem ne_of_bare {c d : Char} (bare : isBareKeyChar c = true) (mark : isBareKeyChar d = false) :
    c ≠ d := by
  rintro rfl
  rw [bare] at mark
  cases mark

theorem isBlank_of_bare {c : Char} (bare : isBareKeyChar c = true) : isBlank c = false := by
  have space := ne_of_bare bare (by decide : isBareKeyChar ' ' = false)
  have tab := ne_of_bare bare (by decide : isBareKeyChar '\t' = false)
  simp [isBlank, space, tab]

theorem starts_of_bare {c : Char} (bare : isBareKeyChar c = true) : Starts c :=
  ⟨isBlank_of_bare bare, ne_of_bare bare (by decide), ne_of_bare bare (by decide),
    ne_of_bare bare (by decide), ne_of_bare bare (by decide)⟩

theorem skipBlanks_of_not {c : Char} (shown : isBlank c = false) (cs : List Char) :
    skipBlanks (c :: cs) = c :: cs := by
  rw [skipBlanks, List.dropWhile_cons_of_neg (by simp [shown])]

/-- A bare key is read up to the equals sign. -/
theorem readKey?_bare {c : Char} {cs : List Char} (bare : ∀ d ∈ c :: cs, isBareKeyChar d = true)
    (parts : Nat) (rest : List Char) :
    readKey? (parts + 1) (c :: (cs ++ ' ' :: '=' :: rest)) =
      some (([], String.ofList (c :: cs)), '=' :: rest) := by
  rw [List.forall_mem_cons] at bare
  have stop : ∀ d ∈ (' ' :: '=' :: rest).head?, isBareKeyChar d = false := by
    intro d head
    obtain rfl := Option.some.inj head
    decide
  have taken : (cs ++ ' ' :: '=' :: rest).takeWhile isBareKeyChar = cs :=
    Text.takeWhile_run bare.2 stop
  have left : (cs ++ ' ' :: '=' :: rest).dropWhile isBareKeyChar = ' ' :: '=' :: rest :=
    Text.dropWhile_run bare.2 stop
  have part : readKeyPart? (c :: (cs ++ ' ' :: '=' :: rest)) =
      some (String.ofList (c :: cs), ' ' :: '=' :: rest) := by
    have double := ne_of_bare bare.1 (by decide : isBareKeyChar '"' = false)
    have single := ne_of_bare bare.1 (by decide : isBareKeyChar '\x27' = false)
    rw [readKeyPart?, if_neg double, if_neg single, if_pos bare.1, taken, left]
  have sign : skipBlanks (' ' :: '=' :: rest) = '=' :: rest := rfl
  rw [readKey?, skipBlanks_of_not (isBlank_of_bare bare.1), part]
  simp only [Option.bind_eq_bind, Option.bind_some, sign]
  rfl

variable {entry : String × Toml} (writable : Writable entry)
include writable

theorem entryChars_first : ∃ c cs, entryChars entry = c :: cs ∧ isBareKeyChar c = true := by
  obtain ⟨some, bare⟩ := writable.bare
  cases text : entry.1.toList with
  | nil => exact absurd text some
  | cons c cs =>
      rw [text, List.all_eq_true] at bare
      refine ⟨c, cs ++ " = ".toList ++ valueChars entry.2 ++ ['\n'], ?_, bare c List.mem_cons_self⟩
      rw [entryChars, text]
      rfl

/-- A written line is read back. -/
theorem readLine?_entryChars (rest : List Char) :
    readLine? (entryChars entry ++ rest) = some (.assignment [] entry.1 entry.2, rest) := by
  obtain ⟨some, bare⟩ := writable.bare
  cases text : entry.1.toList with
  | nil => exact absurd text some
  | cons c cs =>
      rw [text, List.all_eq_true] at bare
      have line : entryChars entry ++ rest =
          c :: (cs ++ ' ' :: '=' :: ' ' :: (valueChars entry.2 ++ '\n' :: rest)) := by
        simp [entryChars, text]
      have key : String.ofList (c :: cs) = entry.1 := by rw [← text, String.ofList_toList]
      have header := ne_of_bare (bare c List.mem_cons_self) (by decide : isBareKeyChar '[' = false)
      have enough : 2 * (valueChars entry.2).length ≤
          2 * (' ' :: (valueChars entry.2 ++ '\n' :: rest)).length + 2 := by
        simp only [List.length_cons, List.length_append]
        omega
      have read := writable.written.readsBack (closes_cons (.inr (.inr rfl)) rest) enough
      have gap : skipBlanks (' ' :: (valueChars entry.2 ++ '\n' :: rest)) =
          valueChars entry.2 ++ '\n' :: rest := by
        obtain ⟨first, more, value, shown, -⟩ := writable.written.first
        rw [value, List.cons_append, skipBlanks, List.dropWhile_cons_of_pos rfl]
        exact skipBlanks_of_not shown _
      have ended : afterLine? ('\n' :: rest) = Option.some rest := rfl
      have name := readKey?_bare bare 78 (' ' :: (valueChars entry.2 ++ '\n' :: rest))
      rw [line, readLine?]
      · rw [show maxDepth = 78 + 1 from rfl, name]
        simp only [Option.bind_eq_bind, Option.bind_some, afterChar?, if_true]
        rw [gap, show 78 + 1 = maxDepth from rfl, read]
        simp only [Option.bind_some, ended, key]
      all_goals
        intro more same
        exact header (List.cons.inj same).1

end Lines

section Documents

theorem readLines?_entries {entries : Entries} (writable : ∀ entry ∈ entries, Writable entry)
    {steps : Nat} (enough : entries.length < steps) :
    readLines? steps (entries.flatMap entryChars) =
      some (entries.map fun entry => .assignment [] entry.1 entry.2) := by
  induction entries generalizing steps with
  | nil =>
      obtain ⟨steps, rfl⟩ := Nat.exists_eq_add_one_of_ne_zero (Nat.ne_zero_of_lt enough)
      rw [List.flatMap_nil, readLines?, skipLines.eq_def]
      rfl
  | cons entry entries ih =>
      rw [List.forall_mem_cons] at writable
      rw [List.length_cons] at enough
      obtain ⟨steps, rfl⟩ := Nat.exists_eq_add_one_of_ne_zero (Nat.ne_zero_of_lt enough)
      have others := ih writable.2 (Nat.lt_of_succ_lt_succ enough)
      have line := readLine?_entryChars writable.1 (entries.flatMap entryChars)
      obtain ⟨c, cs, text, bare⟩ := entryChars_first writable.1
      rw [List.flatMap_cons, readLines?]
      rw [text, List.cons_append] at line ⊢
      rw [skipLines_of_starts (starts_of_bare bare)]
      simp only [line, others, Option.bind_eq_bind, Option.bind_some, List.map_cons]

theorem length_le_flatMap {entries : Entries} (writable : ∀ entry ∈ entries, Writable entry) :
    entries.length ≤ (entries.flatMap entryChars).length := by
  induction entries with
  | nil => exact Nat.le_refl 0
  | cons entry entries ih =>
      rw [List.forall_mem_cons] at writable
      obtain ⟨c, cs, text, -⟩ := entryChars_first writable.1
      have others := ih writable.2
      rw [List.flatMap_cons, text, List.length_append, List.length_cons, List.length_cons]
      omega

/-- A new key at the top of the document. -/
theorem add?_assignment {root : Entries} {key : String} (fresh : key ∉ root.map Prod.fst)
    (value : Toml) : Draft.add? ⟨root, []⟩ (.assignment [] key value) =
      some ⟨root ++ [(key, value)], []⟩ := by
  simp only [Draft.add?, update, assign, lookup_of_not_mem fresh]
  rfl

theorem foldlM_add? (root : Entries) {entries : Entries} (distinct : ((root ++ entries).map Prod.fst).Nodup) :
    (entries.map fun entry => Line.assignment [] entry.1 entry.2).foldlM Draft.add? ⟨root, []⟩ =
      some ⟨root ++ entries, []⟩ := by
  induction entries generalizing root with
  | nil => simp
  | cons entry entries ih =>
      have fresh : entry.1 ∉ root.map Prod.fst := by
        rw [List.map_append, List.nodup_append] at distinct
        intro member
        exact distinct.2.2 _ member _ List.mem_cons_self rfl
      have others := ih (root ++ [entry]) (by simpa using distinct)
      rw [List.map_cons, List.foldlM_cons, add?_assignment fresh]
      simpa using others

/-- A written document is read back. -/
theorem ofText?_documentText {entries : Entries} (writable : ∀ entry ∈ entries, Writable entry)
    (distinct : (entries.map Prod.fst).Nodup) : ofText? (documentText entries) = some entries := by
  have mark : dropMark (entries.flatMap entryChars) = entries.flatMap entryChars := by
    cases entries with
    | nil => rfl
    | cons entry entries =>
        obtain ⟨c, cs, text, bare⟩ := entryChars_first (writable entry List.mem_cons_self)
        have other := ne_of_bare bare (by decide : isBareKeyChar '\ufeff' = false)
        rw [List.flatMap_cons, text, List.cons_append, dropMark]
        exact fun _ same => other (List.cons.inj same).1
  have enough := Nat.lt_succ_of_le (length_le_flatMap writable)
  have lines := readLines?_entries writable enough
  have made := foldlM_add? [] distinct
  rw [List.nil_append] at made
  rw [ofText?, documentText, String.toList_ofList]
  simp only [mark, lines, Option.bind_eq_bind, Option.bind_some, ofLines?, made, Option.map_some]

end Documents

end CqlStatements.Toml
