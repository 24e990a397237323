/-!
# Decimal numerals

Natural and whole numbers as plain decimal text, and back.  A numeral has no
leading zeros when written; when read it may have any number of them.
-/

namespace UssdFlows.Number

/-- The decimal numeral of a natural number. -/
def natText (n : Nat) : String := String.ofList (Nat.toDigits 10 n)

/-- The decimal numeral of a whole number, with a minus sign if it is negative. -/
def intText : Int → String
  | .ofNat n => natText n
  | .negSucc n => "-" ++ natText (n + 1)

/-- A numeral filled up with zeros on the left to a given width. -/
def paddedText (width n : Nat) : String :=
  let digits := Nat.toDigits 10 n
  String.ofList (List.replicate (width - digits.length) '0' ++ digits)

/-- The value of an ASCII digit. -/
def digitOf (c : Char) : Nat := c.toNat - '0'.toNat

/-- The number written by a list of ASCII digits. -/
def readDigits (cs : List Char) : Nat := cs.foldl (fun n c => 10 * n + digitOf c) 0

/-- Reads a non-empty list of ASCII digits. -/
def readNat? (cs : List Char) : Option Nat :=
  if !cs.isEmpty && cs.all Char.isDigit then some (readDigits cs) else none

/-- The digits of a list up to the first other character, and the rest. -/
def spanDigits (cs : List Char) : List Char × List Char :=
  (cs.takeWhile Char.isDigit, cs.dropWhile Char.isDigit)

/-- The greatest number of digits of a whole number that is read from a document
or shown in a variable. -/
def digitLimit : Nat := 4300

/-- Whether a whole number has few enough digits to be shown. -/
def isShowable (n : Int) : Bool := n.natAbs < Nat.pow 10 digitLimit

/-- The wording for a whole number with more digits that is to be shown. -/
def overlongText : String :=
  "Exceeds the limit (" ++ natText digitLimit ++
    " digits) for integer string conversion; use sys.set_int_max_str_digits() to increase the limit"

/-- The wording for a whole number with more digits that is read. -/
def digitLimitText (count : Nat) : String :=
  "Exceeds the limit (" ++ natText digitLimit ++
    " digits) for integer string conversion: value has " ++ natText count ++
    " digits; use sys.set_int_max_str_digits() to increase the limit"

/-- Zeros on the left do not change what is read. -/
theorem readDigits_zeros_append (width : Nat) (cs : List Char) :
    readDigits (List.replicate width '0' ++ cs) = readDigits cs := by
  induction width with
  | zero => rfl
  | succ width ih => exact ih

/-- A numeral is read as the number it was written for. -/
theorem readDigits_toDigits (n : Nat) : readDigits (Nat.toDigits 10 n) = n :=
  Nat.ofDigitChars_ten_toDigits

/-- Different numbers have different numerals, filled up or not. -/
theorem paddedText_injective {width m n : Nat} (h : paddedText width m = paddedText width n) :
    m = n := by
  have hread : ∀ k, readDigits (paddedText width k).toList = k := by
    intro k
    rw [paddedText, String.toList_ofList, readDigits_zeros_append, readDigits_toDigits]
  rw [← hread m, h, hread n]

end UssdFlows.Number
