/-!
# Blanks, trimming, letter case and splitting

Some rules of text are shared by the whole library. A blank is a character with the Unicode property
White_Space, and trimming takes blanks, and nothing else, from both ends. Letter case is folded for
the ASCII letters alone. Splitting cuts a text at every occurrence of one character, so a text always
has one part more than it has separators.
-/
namespace CqlStatements.Text

/-- The code points with the property White_Space, as closed ranges in rising order. -/
def blankRanges : List (Nat × Nat) :=
  [(0x09, 0x0D), (0x20, 0x20), (0x85, 0x85), (0xA0, 0xA0), (0x1680, 0x1680), (0x2000, 0x200A),
    (0x2028, 0x2029), (0x202F, 0x202F), (0x205F, 0x205F), (0x3000, 0x3000)]

def isBlank (c : Char) : Bool :=
  blankRanges.any fun range => range.1 ≤ c.toNat && c.toNat ≤ range.2

/-- The characters left when the blanks at both ends are taken away. -/
def trimChars (cs : List Char) : List Char :=
  ((cs.dropWhile isBlank).reverse.dropWhile isBlank).reverse

def trim (s : String) : String :=
  String.ofList (trimChars s.toList)

@[simp] theorem toList_trim (s : String) : (trim s).toList = trimChars s.toList := by
  simp [trim]

/-- The ASCII letters in lower case, all other characters as they are. -/
def lower (s : String) : String :=
  String.ofList (s.toList.map Char.toLower)

@[simp] theorem toList_lower (s : String) : (lower s).toList = s.toList.map Char.toLower := by
  simp [lower]

/-- The parts of a text between its separators, empty ones included. -/
def splitChars (separator : Char) : List Char → List (List Char)
  | [] => [[]]
  | c :: cs =>
      if c = separator then [] :: splitChars separator cs
      else (splitChars separator cs).modifyHead (c :: ·)

theorem length_splitChars (separator : Char) (cs : List Char) :
    (splitChars separator cs).length = cs.count separator + 1 := by
  induction cs with
  | nil => rfl
  | cons c cs ih => by_cases h : c = separator <;> simp [splitChars, h, ih]

/-- Text without separators belongs to the first part of what it is put in front of. -/
theorem splitChars_append {separator : Char} {cs : List Char} (free : separator ∉ cs)
    (rest : List Char) :
    splitChars separator (cs ++ rest) = (splitChars separator rest).modifyHead (cs ++ ·) := by
  induction cs with
  | nil =>
      rw [List.nil_append]
      cases splitChars separator rest <;> rfl
  | cons c cs ih =>
      rw [List.mem_cons, not_or] at free
      rw [List.cons_append, splitChars, if_neg (Ne.symm free.1), ih free.2,
        List.modifyHead_modifyHead]
      rfl

theorem splitChars_cut {separator : Char} {front : List Char} (free : separator ∉ front)
    (back : List Char) :
    splitChars separator (front ++ separator :: back) = front :: splitChars separator back := by
  rw [splitChars_append free, splitChars, if_pos rfl, List.modifyHead_cons, List.append_nil]

theorem splitChars_of_free {separator : Char} {cs : List Char} (free : separator ∉ cs) :
    splitChars separator cs = [cs] := by
  have whole := splitChars_append free []
  rwa [List.append_nil, splitChars, List.modifyHead_cons, List.append_nil] at whole

def split (separator : Char) (s : String) : List String :=
  (splitChars separator s.toList).map String.ofList

end CqlStatements.Text
