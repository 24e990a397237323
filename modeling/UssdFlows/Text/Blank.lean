/-!
# Blank characters

Two classes of blank characters are in use.  Text typed by a caller, option
keys and names of methods are stripped of every character that separates words
or lines, the four information separators included (`isBlank`).  Numbers given
as text are trimmed of the characters with the Unicode property `White_Space`
only (`isWhiteSpace`).
-/

namespace UssdFlows.Text

/-- Whether a character has the property `White_Space`. -/
def isWhiteSpace (c : Char) : Bool :=
  let n := c.toNat
  (9 ≤ n && n ≤ 13) || n == 0x20 || n == 0x85 || n == 0xA0 || n == 0x1680 ||
    (0x2000 ≤ n && n ≤ 0x200A) || n == 0x2028 || n == 0x2029 || n == 0x202F || n == 0x205F ||
    n == 0x3000

/-- Whether a character is blank: white space or one of the four information
separators. -/
def isBlank (c : Char) : Bool := (0x1C ≤ c.toNat && c.toNat ≤ 0x1F) || isWhiteSpace c

/-- A list of characters without the leading and trailing ones of a class. -/
def stripBy (drop : Char → Bool) (cs : List Char) : List Char :=
  ((cs.dropWhile drop).reverse.dropWhile drop).reverse

/-- A text without leading and trailing blank characters. -/
def strip (s : String) : String := String.ofList (stripBy isBlank s.toList)

/-- Whether a text holds nothing but blank characters. -/
def isBlankText (s : String) : Bool := s.toList.all isBlank

/-- Whether a text is its own stripped form and not empty. -/
def isTrimmed (s : String) : Bool := s != "" && strip s == s

theorem strip_of_isTrimmed {s : String} (h : isTrimmed s = true) : strip s = s := by
  rw [isTrimmed, Bool.and_eq_true, beq_iff_eq] at h
  exact h.2

/-- A list that starts and ends with kept characters is its own stripped form. -/
theorem stripBy_eq_self {drop : Char → Bool} {cs : List Char}
    (first : ∀ c ∈ cs.head?, drop c = false) (last : ∀ c ∈ cs.getLast?, drop c = false) :
    stripBy drop cs = cs := by
  have h1 : cs.dropWhile drop = cs := by
    cases cs with
    | nil => rfl
    | cons c r => simp [List.dropWhile, first c (by simp)]
  have h2 : cs.reverse.dropWhile drop = cs.reverse := by
    cases hr : cs.reverse with
    | nil => rfl
    | cons c r =>
      have : c ∈ cs.getLast? := by
        rw [← List.head?_reverse, hr]; rfl
      simp [List.dropWhile, last c this]
  simp [stripBy, h1, h2]

end UssdFlows.Text
