import UssdFlows.Document.Value
import UssdFlows.Number.Radix
import UssdFlows.Number.Reading

/-!
# Reading JSON text

The reader follows the JSON grammar with three liberties: the words `NaN`,
`Infinity` and `-Infinity` are numbers, a name may occur twice in an object
(the last value stands at the first place), and any value may stand at the
top.  A numeral without point and exponent is a whole number of any size up to
a limit on its digits; every other numeral is a binary64 number.  Values may be
nested to any depth.

Every refusal names what was expected and the place, counted in characters
from the start of the text.
-/

namespace UssdFlows.Json

/-- Why a text is not JSON. -/
inductive Fault where
  | expectedValue
  | expectedName
  | expectedColon
  | expectedComma
  | extraData
  | unterminatedText
  | controlCharacter
  | badEscape
  | badUnicodeEscape
  | byteOrderMark
  /-- A whole number with too many digits. -/
  | tooManyDigits (count : Nat)
  /-- The reader gave up for want of something that the text does not decide,
  such as room for nested values. -/
  | raised (message : String)
  deriving DecidableEq, Repr

/-- Whether a fault is one of the grammar. -/
def Fault.isGrammar : Fault → Bool
  | tooManyDigits _ | raised _ => false
  | _ => true

/-- A fault and the place where it was met. -/
structure Failure where
  fault : Fault
  position : Nat
  deriving DecidableEq, Repr

/-- The wording of a fault. -/
def Fault.message : Fault → String
  | expectedValue => "Expecting value"
  | expectedName => "Expecting property name enclosed in double quotes"
  | expectedColon => "Expecting ':' delimiter"
  | expectedComma => "Expecting ',' delimiter"
  | extraData => "Extra data"
  | unterminatedText => "Unterminated string starting at"
  | controlCharacter => "Invalid control character at"
  | badEscape => "Invalid \\escape"
  | badUnicodeEscape => "Invalid \\uXXXX escape"
  | byteOrderMark => "Unexpected UTF-8 BOM (decode using utf-8-sig)"
  | tooManyDigits count => Number.digitLimitText count
  | raised message => message

/-- The line and the column of a position, both counted from one. -/
def lineColumn (cs : List Char) (position : Nat) : Nat × Nat :=
  let before := cs.take position
  (before.count '\n' + 1, (before.reverse.takeWhile (· != '\n')).length + 1)

/-- The wording of a failure, with its line, column and position. -/
def Failure.message (f : Failure) (source : String) : String :=
  let (line, column) := lineColumn source.toList f.position
  f.fault.message ++ ": line " ++ Number.natText line ++ " column " ++ Number.natText column ++
    " (char " ++ Number.natText f.position ++ ")"

/-- What is left to read, and its distance from the start. -/
structure Cursor where
  position : Nat
  rest : List Char

/-- Moves past the first `n` characters. -/
def Cursor.skip (c : Cursor) (n : Nat) : Cursor := ⟨c.position + n, c.rest.drop n⟩

/-- Whether a character may stand between the parts of a document. -/
def isSpace (c : Char) : Bool := c = ' ' || c = '\t' || c = '\n' || c = '\r'

/-- Moves past spaces. -/
def Cursor.skipSpace (c : Cursor) : Cursor := c.skip (c.rest.takeWhile isSpace).length

/-- The result of reading one part. -/
abbrev Reading (α : Type) := Except Failure (α × Cursor)

/-- Refuses the text at a position. -/
def refuse {α : Type} (fault : Fault) (position : Nat) : Reading α := .error ⟨fault, position⟩

/-! ## Texts -/

/-- The character of a short escape. -/
def shortEscape? : Char → Option Char
  | '"' => some '"'
  | '\\' => some '\\'
  | '/' => some '/'
  | 'b' => some '\x08'
  | 'f' => some '\x0c'
  | 'n' => some '\n'
  | 'r' => some '\r'
  | 't' => some '\t'
  | _ => none

/-- Whether a code unit opens a surrogate pair. -/
def isHighSurrogate (n : Nat) : Bool := 0xD800 ≤ n && n ≤ 0xDBFF

/-- Whether a code unit closes a surrogate pair. -/
def isLowSurrogate (n : Nat) : Bool := 0xDC00 ≤ n && n ≤ 0xDFFF

/-- The code of the character of a surrogate pair. -/
def pairCode (high low : Nat) : Nat := 0x10000 + (high - 0xD800) * 0x400 + (low - 0xDC00)

/-- Reads what follows the `u` of a long escape.  A first half of a surrogate
pair takes the second half with it if one follows inside the text. -/
def readLongEscape (c : Cursor) : Reading Nat :=
  -- four digits and at least one more character must follow
  if c.rest.length ≤ 4 then refuse .badUnicodeEscape (c.position - 1)
  else match Number.readRadix? 16 (c.rest.take 4) with
    | none => refuse .badUnicodeEscape (c.position - 1)
    | some high =>
      let next := c.skip 4
      match next.rest with
      | '\\' :: 'u' :: more =>
        if isHighSurrogate high && more.length > 4 then
          match Number.readRadix? 16 (more.take 4) with
          | none => refuse .badUnicodeEscape (next.position + 1)
          | some low =>
            if isLowSurrogate low then .ok (pairCode high low, next.skip 6)
            else .ok (high, next)
        else .ok (high, next)
      | _ => .ok (high, next)

/-- Reads the rest of a text whose opening quote stands at `start`; `done`
holds the codes that were read, last one first. -/
def readText (start : Nat) : (fuel : Nat) → (done : List Nat) → Cursor → Reading Value
  | 0, _, _ => refuse .unterminatedText start
  | fuel + 1, done, c =>
    match c.rest with
    | [] => refuse .unterminatedText start
    | '"' :: _ => .ok (.ofCodes done.reverse, c.skip 1)
    | '\\' :: [] => refuse .unterminatedText start
    | '\\' :: 'u' :: _ =>
      match readLongEscape (c.skip 2) with
      | .ok (code, next) => readText start fuel (code :: done) next
      | .error e => .error e
    | '\\' :: e :: _ =>
      match shortEscape? e with
      | some ch => readText start fuel (ch.toNat :: done) (c.skip 2)
      | none => refuse .badEscape c.position
    | ch :: _ =>
      if ch.toNat ≤ 0x1F then refuse .controlCharacter c.position
      else readText start fuel (ch.toNat :: done) (c.skip 1)

/-! ## Numbers -/

/-- The length of the fraction at the front: a point and at least one digit. -/
def fractionLength : List Char → Nat
  | '.' :: more => match (more.takeWhile Char.isDigit).length with
    | 0 => 0
    | n => n + 1
  | _ => 0

/-- The length of the exponent at the front: its letter, an optional sign and
at least one digit. -/
def exponentLength : List Char → Nat
  | e :: more =>
    if e = 'e' || e = 'E' then
      let sign := match more with
        | '+' :: _ => 1
        | '-' :: _ => 1
        | _ => 0
      match ((more.drop sign).takeWhile Char.isDigit).length with
      | 0 => 0
      | n => n + sign + 1
    else 0
  | [] => 0

/-- Splits off a minus sign, and says whether there is one. -/
def splitSign : List Char → Bool × List Char
  | '-' :: more => (true, more)
  | cs => (false, cs)

/-- The whole part at the front: a single zero, or all digits. -/
def wholePart : List Char → List Char
  | '0' :: _ => ['0']
  | cs => cs.takeWhile Char.isDigit

/-- Reads a numeral. -/
def readNumber (c : Cursor) : Reading Value :=
  let (negative, body) := splitSign c.rest
  let whole := wholePart body
  if whole.isEmpty then refuse .expectedValue c.position
  else
    let after := body.drop whole.length
    let fraction := fractionLength after
    let exponent := exponentLength (after.drop fraction)
    let length := negative.toNat + whole.length + fraction + exponent
    let next := c.skip length
    if fraction + exponent = 0 then
      if whole.length > Number.digitLimit then refuse (.tooManyDigits whole.length) c.position
      else
        let n : Int := Number.readDigits whole
        .ok (.int (if negative then -n else n), next)
    else match Number.readDecimal? (c.rest.take length) with
      | some x => .ok (.real x, next)
      | none => refuse .expectedValue c.position

/-- The words that stand for values. -/
def words : List (List Char × Value) :=
  [("null".toList, .null), ("true".toList, .bool true), ("false".toList, .bool false),
   ("NaN".toList, .real .notANumber), ("Infinity".toList, .real (.infinite false)),
   ("-Infinity".toList, .real (.infinite true))]

/-- The word at the front of a text. -/
def wordAt? (cs : List Char) : Option (List Char × Value) :=
  words.find? fun w => w.1.isPrefixOf cs

/-! ## Values -/

mutual

/-- Reads a value. -/
def readValue : (fuel : Nat) → Cursor → Reading Value
  | 0, c => refuse .expectedValue c.position
  | fuel + 1, c =>
    match c.rest with
    | [] => refuse .expectedValue c.position
    | '"' :: more =>
      readText c.position (more.length + 1) [] (c.skip 1)
    | '[' :: _ =>
      let next := (c.skip 1).skipSpace
      match next.rest with
      | ']' :: _ => .ok (.list [], next.skip 1)
      | _ => readItems fuel [] next
    | '\x7b' :: _ =>
      let next := (c.skip 1).skipSpace
      match next.rest with
      | '\x7d' :: _ => .ok (.record [], next.skip 1)
      | _ => readMembers fuel [] next
    | _ =>
      match wordAt? c.rest with
      | some (word, v) => .ok (v, c.skip word.length)
      | none => readNumber c

/-- Reads the items of a list from the first one on; `done` holds those read,
last first. -/
def readItems : (fuel : Nat) → (done : List Value) → Cursor → Reading Value
  | 0, _, c => refuse .expectedValue c.position
  | fuel + 1, done, c =>
    match readValue fuel c with
    | .error e => .error e
    | .ok (v, next) =>
      let next := next.skipSpace
      match next.rest with
      | ']' :: _ => .ok (.list (v :: done).reverse, next.skip 1)
      | ',' :: _ => readItems fuel (v :: done) (next.skip 1).skipSpace
      | _ => refuse .expectedComma next.position

/-- Reads the members of an object from the first name on. -/
def readMembers : (fuel : Nat) → (done : List (Value × Value)) → Cursor → Reading Value
  | 0, _, c => refuse .expectedValue c.position
  | fuel + 1, done, c =>
    match c.rest with
    | '"' :: more =>
      match readText c.position (more.length + 1) [] (c.skip 1) with
      | .error e => .error e
      | .ok (name, next) =>
        let next := next.skipSpace
        match next.rest with
        | ':' :: _ =>
          match readValue fuel (next.skip 1).skipSpace with
          | .error e => .error e
          | .ok (v, next) =>
            let next := next.skipSpace
            let members := Value.putMember done name v
            match next.rest with
            | '\x7d' :: _ => .ok (.record members, next.skip 1)
            | ',' :: _ => readMembers fuel members (next.skip 1).skipSpace
            | _ => refuse .expectedComma next.position
        | _ => refuse .expectedColon next.position
    | _ => refuse .expectedName c.position

end

/-- Reads a text as one JSON value. -/
def read (source : String) : Except Failure Value :=
  let cs := source.toList
  match cs with
  | '\uFEFF' :: _ => .error ⟨.byteOrderMark, 0⟩
  | _ =>
    match readValue (2 * cs.length + 2) (Cursor.skipSpace ⟨0, cs⟩) with
    | .error e => .error e
    | .ok (v, next) =>
      let next := next.skipSpace
      if next.rest.isEmpty then .ok v else .error ⟨.extraData, next.position⟩

/-- A text that starts with a byte order mark is refused at its start. -/
theorem read_byteOrderMark (cs : List Char) :
    read (String.ofList ('\uFEFF' :: cs)) = .error ⟨.byteOrderMark, 0⟩ := by
  simp [read]

end UssdFlows.Json
