import UssdFlows.Number.Binary64
import UssdFlows.Number.Decimal
import UssdFlows.Text.Blank
import UssdFlows.Text.Digit

/-!
# Reading decimal numbers

The grammar of a decimal number is an optional sign, digits with an optional
point among or around them (at least one digit in all), and an optional
exponent; or one of the words for infinity and for the value that is not a
number, in any case.  The value is the nearest number of the binary64 format.
-/

namespace UssdFlows.Number

/-- Splits a leading sign off; the first part says whether it was a minus. -/
def splitSign : List Char → Bool × List Char
  | '-' :: cs => (true, cs)
  | '+' :: cs => (false, cs)
  | cs => (false, cs)

/-- Reads a decimal exponent that ends the text; nothing at all is the exponent zero. -/
def readExponent? : List Char → Option Int
  | [] => some 0
  | c :: cs =>
    if c = 'e' || c = 'E' then
      let (negative, digits) := splitSign cs
      (readNat? digits).map fun n => if negative then -(n : Int) else n
    else none

/-- Reads an unsigned decimal number, sign given. -/
def readUnsigned? (negative : Bool) (cs : List Char) : Option Binary64 :=
  let (whole, rest) := spanDigits cs
  let (fraction, rest) := match rest with
    | '.' :: more => spanDigits more
    | _ => ([], rest)
  if whole.isEmpty && fraction.isEmpty then none
  else (readExponent? rest).map fun e =>
    Binary64.ofDecimal negative (readDigits (whole ++ fraction)) (e - fraction.length)

/-- Reads a signed decimal number or a word for a number that is not finite. -/
def readDecimal? (cs : List Char) : Option Binary64 :=
  let (negative, body) := splitSign cs
  let word := body.map Char.toLower
  if word = "inf".toList || word = "infinity".toList then some (.infinite negative)
  else if word = "nan".toList then some .notANumber
  else readUnsigned? negative body

/-- A decimal digit of any script as its ASCII digit; other characters stay. -/
def asciiDigit (c : Char) : Char :=
  match Text.digitValue? c with
  | some n => Char.ofNat ('0'.toNat + n)
  | none => c

/-- The finite number that a text denotes, if it denotes one.  Blank
characters around it do not count, digits of every script do, and an
underscore never belongs to a number. -/
def finiteOf? (s : String) : Option Binary64 :=
  let cs := Text.stripBy Text.isBlank s.toList
  if cs.contains '_' then none
  else match readDecimal? (cs.map asciiDigit) with
    | some x => if x.isFinite then some x else none
    | none => none

/-- Underscores are allowed singly between two digits; this drops them, or
refuses the text. -/
def dropGroups? : List Char → Option (List Char)
  | [] => some []
  | c :: '_' :: d :: rest =>
    if c.isDigit && d.isDigit then (dropGroups? (d :: rest)).map (c :: ·) else none
  | c :: rest => if c = '_' then none else (dropGroups? rest).map (c :: ·)

/-- Reads the text of a whole number as a field of a document may give it: an
optional sign, grouped digits, and optionally a point with zeros after it. -/
def readWhole? (s : String) : Option Int :=
  let cs := Text.stripBy Text.isWhiteSpace s.toList
  let (negative, body) := splitSign cs
  (dropGroups? body).bind fun digits =>
    let (whole, rest) := spanDigits digits
    let zeros := match rest with
      | [] => true
      | '.' :: z => !z.isEmpty && z.all (· == '0')
      | _ => false
    if whole.isEmpty || !zeros then none
    else
      let n : Int := readDigits whole
      some (if negative then -n else n)

/-- Reads the text of a number as a field of a document may give it. -/
def readReal? (s : String) : Option Binary64 :=
  (dropGroups? (Text.stripBy Text.isWhiteSpace s.toList)).bind readDecimal?

example : readWhole? " +1_000.0 " = some 1000 := by decide +kernel

end UssdFlows.Number
