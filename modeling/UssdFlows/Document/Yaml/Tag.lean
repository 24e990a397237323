import UssdFlows.Document.Yaml.Cursor
import UssdFlows.Number.Radix
import UssdFlows.Number.Reading
import UssdFlows.Time.Calendar

/-!
# Types of scalars in block notation

Every node has a tag that says what kind of value it is.  A plain scalar
without a tag gets one from its form: the words for null and truth, whole
numbers in several bases, reals with a point, and dates.  Everything else is
text.

A form is a plain predicate on the characters (`isWhole`, `isReal`,
`momentParts?`); the value of a scalar is computed apart from it, because a
tag may also be written out in front of any scalar.
-/

namespace UssdFlows.Yaml

/-- The kinds of value. -/
inductive Tag where
  | null
  | bool
  | int
  | float
  | moment
  | binary
  | text
  | sequence
  | mapping
  | set
  | ordered
  | pairs
  /-- The key whose value is merged into a mapping. -/
  | merge
  /-- The key for the value of a mapping as a whole. -/
  | whole
  | other (address : String)
  deriving DecidableEq, Repr

namespace Tag

/-- The common start of the addresses of the known tags. -/
def space : String := "tag:yaml.org,2002:"

/-- The known tags by the end of their address. -/
def known : List (String × Tag) :=
  [("null", null), ("bool", bool), ("int", int), ("float", float), ("timestamp", moment),
    ("binary", binary), ("str", text), ("seq", sequence), ("map", mapping), ("set", set),
    ("omap", ordered), ("pairs", pairs), ("merge", merge), ("value", whole)]

/-- The tag with an address. -/
def ofAddress (address : String) : Tag :=
  ((known.map fun k => (space ++ k.1, k.2)).lookup address).getD (other address)

/-- The address of a tag. -/
def address : Tag → String
  | other a => a
  | t => space ++ ((known.find? fun k => k.2 == t).map Prod.fst).getD ""

end Tag

/-! ## The forms of plain scalars -/

/-- Whether a character may stand in a grouped decimal number. -/
def isGrouped (ch : Char) : Bool := ch.isDigit || ch = '_'

/-- What follows colons and numbers below sixty, of one or two digits; nothing
unless there is at least one. -/
def afterSixties? : (fuel : Nat) → List Char → Option (List Char)
  | 0, _ => none
  | fuel + 1, ':' :: rest =>
    let digits := rest.takeWhile Char.isDigit
    let more := rest.drop digits.length
    let fits := match digits with
      | [_] => true
      | [tens, _] => tens ≤ '5'
      | _ => false
    if !fits then none
    else if more.head? = some ':' then afterSixties? fuel more
    else some more
  | _ + 1, _ => none

/-- Whether characters have the form of a whole number. -/
def isWhole (cs : List Char) : Bool :=
  match (Number.splitSign cs).2 with
  | '0' :: 'b' :: rest => !rest.isEmpty && rest.all fun c => c = '0' || c = '1' || c = '_'
  | '0' :: 'x' :: rest =>
    !rest.isEmpty && rest.all fun c => (Number.hexDigit? c).isSome || c = '_'
  | ['0'] => true
  | '0' :: rest => rest.all fun c => (Number.digitIn? 8 c).isSome || c = '_'
  | c :: rest =>
    let more := rest.dropWhile isGrouped
    c.isDigit && (more.isEmpty || afterSixties? (more.length + 1) more == some [])
  | [] => false

/-- Whether characters are a signed exponent, or nothing. -/
def isExponent : List Char → Bool
  | [] => true
  | e :: sign :: digits =>
    (e = 'e' || e = 'E') && (sign = '+' || sign = '-') && !digits.isEmpty &&
      digits.all Char.isDigit
  | _ => false

/-- Whether characters have the form of a real number. -/
def isReal (cs : List Char) : Bool :=
  let body := (Number.splitSign cs).2
  let word := String.ofList body
  if [".inf", ".Inf", ".INF"].contains word then true
  else if [".nan", ".NaN", ".NAN"].contains (String.ofList cs) then true
  else match body with
    | '.' :: d :: rest => cs.head? = some '.' && d.isDigit && isExponent (rest.dropWhile isGrouped)
    | d :: rest =>
      d.isDigit &&
        match rest.dropWhile isGrouped with
        | '.' :: fraction => isExponent (fraction.dropWhile isGrouped)
        | more =>
          match afterSixties? (more.length + 1) more with
          | some ('.' :: fraction) => fraction.all isGrouped
          | _ => false
    | [] => false

/-- The parts of a date and time as they are written. -/
structure MomentParts where
  year : List Char
  month : List Char
  day : List Char
  /-- Hour, minute, second, and digits after the point. -/
  time : Option (List Char × List Char × List Char × List Char)
  /-- Minutes ahead of universal time. -/
  offset : Option Int

/-- One or two digits before another character, and what follows. -/
def shortNumber? (cs : List Char) : Option (List Char × List Char) :=
  let (digits, rest) := Number.spanDigits cs
  if digits.length = 1 || digits.length = 2 then some (digits, rest) else none

/-- Two digits, and what follows. -/
def twoDigits? : List Char → Option (List Char × List Char)
  | a :: b :: rest => if a.isDigit && b.isDigit then some ([a, b], rest) else none
  | _ => none

/-- An offset from universal time that ends the text, in minutes. -/
def offset? (cs : List Char) : Option (Option Int) :=
  match cs.dropWhile fun c => c = ' ' || c = '\t' with
  | [] => if cs.isEmpty then some none else none
  | ['Z'] => some (some 0)
  | sign :: rest =>
    if sign = '+' || sign = '-' then do
      let (hours, rest) ← shortNumber? rest
      let minutes ← match rest with
        | [] => some 0
        | ':' :: more => do
          let (digits, ending) ← twoDigits? more
          if ending.isEmpty then some (Number.readDigits digits) else none
        | _ => none
      let total : Int := (60 * Number.readDigits hours + minutes : Nat)
      return some (if sign = '-' then -total else total)
    else none

/-- The time of day and the offset after a date. -/
def timeParts? (cs : List Char) :
    Option (Option (List Char × List Char × List Char × List Char) × Option Int) :=
  match cs with
  | [] => some (none, none)
  | c :: rest => do
    let start ←
      if c = 'T' || c = 't' then some rest
      else if c = ' ' || c = '\t' then some (rest.dropWhile fun c => c = ' ' || c = '\t')
      else none
    let (hour, rest) ← shortNumber? start
    let (minute, rest) ← match rest with
      | ':' :: more => twoDigits? more
      | _ => none
    let (second, rest) ← match rest with
      | ':' :: more => twoDigits? more
      | _ => none
    let (fraction, rest) := match rest with
      | '.' :: more => Number.spanDigits more
      | _ => ([], rest)
    let offset ← offset? rest
    return (some (hour, minute, second, fraction), offset)

/-- The parts of a date, with or without a time of day. -/
def momentParts? (cs : List Char) : Option MomentParts := do
  let (year, rest) := Number.spanDigits cs
  if year.length ≠ 4 then none
  let (month, rest) ← match rest with
    | '-' :: more => shortNumber? more
    | _ => none
  let (day, rest) ← match rest with
    | '-' :: more => shortNumber? more
    | _ => none
  let (time, offset) ← timeParts? rest
  return ⟨year, month, day, time, offset⟩

/-- Whether characters have the form of a date: one without a time of day has
two digits for month and day. -/
def isMoment (cs : List Char) : Bool :=
  match momentParts? cs with
  | some p => p.time.isSome || (p.month.length = 2 && p.day.length = 2)
  | none => false

/-- The words for truth values. -/
def truthWords : List (String × Bool) :=
  [("yes", true), ("no", false), ("true", true), ("false", false), ("on", true), ("off", false)]

/-- Whether a word is written in small letters, with a capital, or in capitals. -/
def isPlainWord (s : String) : Bool :=
  s = s.toLower || s = s.toUpper || s = s.toLower.capitalize

/-- The tag that the form of a plain scalar gives. -/
def Tag.ofForm (s : String) : Tag :=
  let cs := s.toList
  if (truthWords.lookup s.toLower).isSome && isPlainWord s then bool
  else if isReal cs then float
  else if isWhole cs then int
  else if s = "<<" then merge
  else if ["~", "null", "Null", "NULL", ""].contains s then null
  else if isMoment cs then moment
  else if s = "=" then whole
  else text

/-! ## The values of scalars -/

/-- A whole number in a base: digits with an optional sign and blanks around. -/
def wholeIn (base : Nat) (cs : List Char) : Except Fault Int :=
  let (negative, digits) := Number.splitSign (Text.stripBy Text.isBlank cs)
  let digits := digits.map Number.asciiDigit
  match digits, Number.readRadix? base digits with
  | _ :: _, some n =>
    if base = 10 && digits.length > Number.digitLimit then .error (.tooManyDigits digits.length)
    else .ok (if negative then -n else n)
  | _, _ => .error (.noWhole base (String.ofList cs))

/-- The value of parts of which each counts sixty times the next. -/
def sixties (parts : List Int) : Int := parts.foldl (fun n p => 60 * n + p) 0

/-- The value of a whole number. -/
def wholeOf (s : String) : Except Fault Int := do
  let (negative, body) := Number.splitSign (s.toList.filter (· ≠ '_'))
  let n ← match body with
    | [] => throw .emptyNumber
    | ['0'] => pure 0
    | '0' :: 'b' :: rest => wholeIn 2 rest
    | '0' :: 'x' :: rest => wholeIn 16 rest
    | '0' :: _ => wholeIn 8 body
    | _ =>
      if body.contains ':' then
        sixties <$> (body.splitOn ':').mapM (wholeIn 10)
      else wholeIn 10 body
  return if negative then -n else n

/-- A real number: a decimal number with blanks around. -/
def realIn (cs : List Char) : Except Fault Binary64 :=
  match Number.readDecimal? ((Text.stripBy Text.isBlank cs).map Number.asciiDigit) with
  | some x => .ok x
  | none => .error (.noReal (String.ofList cs))

/-- Adds real parts, the last one first, of which each counts sixty times the
one added before it; `unit` is what the next one counts.  A unit is rounded to a
number of the binary64 format before it is used, and must not be beyond it. -/
def addSixties (sum : Binary64) (unit : Nat) : List Binary64 → Except Fault Binary64
  | [] => .ok sum
  | part :: before =>
    match (Binary64.ofInt unit).toInt? with
    | none => .error .tooLarge
    | some rounded => addSixties (sum.add (part.timesNat rounded.toNat)) (unit * 60) before

/-- The value of a real number. -/
def realOf (s : String) : Except Fault Binary64 := do
  let cs := (s.toList.filter (· ≠ '_')).map Char.toLower
  if cs.isEmpty then throw .emptyNumber
  let (negative, body) := Number.splitSign cs
  let word := String.ofList body
  let x ←
    if word = ".inf" then pure (Binary64.infinite false)
    else if word = ".nan" then pure Binary64.notANumber
    else if body.contains ':' then
      addSixties .zero 1 (← (body.splitOn ':').mapM realIn).reverse
    else realIn body
  return if negative then x.negate else x

/-- What is impossible about a date and time, if anything is. -/
def impossible? (m : Moment) : Option String :=
  let clock := match m.time with
    | none => none
    | some (h, mi, s, _) =>
      if 23 < h then some "hour must be in 0..23"
      else if 59 < mi then some "minute must be in 0..59"
      else if 59 < s then some "second must be in 0..59"
      else none
  if (m.offset.map Int.natAbs).any fun o => 1440 ≤ o then
    some ("offset must be a timedelta strictly between -timedelta(hours=24) and " ++
      "timedelta(hours=24), not " ++ Value.durationTerm (m.offset.getD 0))
  else if m.year = 0 then some "year 0 is out of range"
  else if m.month < 1 || 12 < m.month then some "month must be in 1..12"
  else if m.day < 1 || Calendar.daysIn m.year m.month < m.day then some "day is out of range for month"
  else clock

/-- The value of a date. -/
def momentOf (s : String) : Except Fault Moment :=
  match momentParts? s.toList with
  | none => .error .noMoment
  | some p =>
    let n := Number.readDigits
    let time := p.time.map fun (h, mi, s, f) =>
      (n h, n mi, n s, n ((f ++ List.replicate 6 '0').take 6))
    let m : Moment := ⟨n p.year, n p.month, n p.day, time, p.offset⟩
    match impossible? m with
    | some reason => .error (.impossibleMoment reason)
    | none => .ok m

/-- The value of a truth word, in any case. -/
def truthOf (s : String) : Except Fault Bool :=
  match truthWords.lookup s.toLower with
  | some b => .ok b
  | none => .error (.noTruth s.toLower)

/-- The value of a letter of the encoding of octets by sixty-four letters. -/
def sextet? (c : Char) : Option Nat :=
  if 'A' ≤ c && c ≤ 'Z' then some (c.toNat - 'A'.toNat)
  else if 'a' ≤ c && c ≤ 'z' then some (c.toNat - 'a'.toNat + 26)
  else if c.isDigit then some (c.toNat - '0'.toNat + 52)
  else if c = '+' then some 62
  else if c = '/' then some 63
  else none

/-- The octets that a row of letters encodes; characters that encode nothing
are skipped, and the last group must be complete. -/
def octetsOf? : (group : List Nat) → List Char → Option (List Nat)
  | [], [] => some []
  | _, [] => none
  | group, c :: rest =>
    match sextet? c with
    | some n =>
      match group with
      | [x, y, z] =>
        let bits := ((x * 64 + y) * 64 + z) * 64 + n
        (octetsOf? [] rest).map ([bits / 65536, bits / 256 % 256, bits % 256] ++ ·)
      | _ => octetsOf? (group ++ [n]) rest
    | none =>
      if c ≠ '=' then octetsOf? group rest
      else match group with
        | [x, y, z] => some [(x * 64 + y) / 16, ((x * 64 + y) * 64 + z) / 4 % 256]
        | [x, y] => if rest.contains '=' then some [(x * 64 + y) / 16] else none
        | _ => octetsOf? group rest

end UssdFlows.Yaml
