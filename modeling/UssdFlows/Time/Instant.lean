import UssdFlows.Number.Binary64
import UssdFlows.Number.Decimal
import UssdFlows.Time.Calendar

/-!
# Instants

An instant is a count of microseconds of universal time.  The years one to
9999 can be written; arithmetic that leaves them has no result.
-/

namespace UssdFlows

/-- A point in universal time. -/
structure Instant where
  /-- Microseconds since the start of the year one. -/
  micros : Nat
  /-- The year is at most 9999. -/
  inRange : micros < 3652059 * 86400000000
  deriving DecidableEq, Repr

namespace Instant

/-- The start of the year one is in range. -/
theorem zero_inRange : 0 < 3652059 * 86400000000 := by decide

/-- A second later is in range. -/
theorem second_inRange : 1000000 < 3652059 * 86400000000 := by decide

/-- The instant after a count of microseconds since the year one. -/
def ofMicros? (n : Int) : Option Instant :=
  if h : 0 ≤ n ∧ n.toNat < 3652059 * 86400000000 then some ⟨n.toNat, h.2⟩ else none

/-- The start of a day. -/
def ofDate? (year month day : Nat) : Option Instant :=
  ofMicros? (Calendar.dayNumber year month day * 86400000000 : Nat)

/-- The instant some microseconds later, or earlier if there are less than none. -/
def shift? (t : Instant) (micros : Int) : Option Instant := ofMicros? (t.micros + micros)

/-- The instant some seconds later. -/
def afterSeconds? (t : Instant) (seconds : Int) : Option Instant := t.shift? (seconds * 1000000)

/-- The microseconds from one instant to another. -/
def since (t start : Instant) : Int := (t.micros : Int) - start.micros

/-- Whether one instant lies before another. -/
def before (t u : Instant) : Bool := t.micros < u.micros

/-- A count of microseconds in seconds. -/
def secondsOf (micros : Int) : Binary64 :=
  .ofRatio (decide (micros < 0)) micros.natAbs 1000000

/-- Date, time of day and the fraction of a second, if it is not zero. -/
def text (t : Instant) (zone : String) : String :=
  let (year, month, day) := Calendar.ofDayNumber (t.micros / 86400000000)
  let micros := t.micros % 86400000000
  let seconds := micros / 1000000
  let two := Number.paddedText 2
  Number.paddedText 4 year ++ "-" ++ two month ++ "-" ++ two day ++ "T" ++
    two (seconds / 3600) ++ ":" ++ two (seconds / 60 % 60) ++ ":" ++ two (seconds % 60) ++
    (if micros % 1000000 = 0 then "" else "." ++ Number.paddedText 6 (micros % 1000000)) ++ zone

/-! ## Reading -/

/-- A whole number of exactly so many digits, and the rest. -/
def readFixed? (width : Nat) (cs : List Char) : Option (Nat × List Char) :=
  let digits := cs.take width
  if digits.length = width && digits.all Char.isDigit then
    some (Number.readDigits digits, cs.drop width)
  else none

/-- A whole number of two digits behind a mark. -/
def readMarked? (mark : Char) : List Char → Option (Nat × List Char)
  | c :: rest => if c = mark then readFixed? 2 rest else none
  | [] => none

/-- A fraction of a second in microseconds, and the rest. -/
def readFraction? : List Char → Option (Nat × List Char)
  | '.' :: rest =>
    let (digits, after) := Number.spanDigits rest
    if digits.isEmpty then none
    else some (Number.readDigits ((digits ++ List.replicate 6 '0').take 6), after)
  | rest => some (0, rest)

/-- The minutes by which a zone is ahead of universal time. -/
def readZone? : List Char → Option Int
  | [] | ['Z'] | ['z'] => some 0
  | sign :: rest =>
    if sign = '+' || sign = '-' then do
      let (hours, rest) ← readFixed? 2 rest
      let (minutes, rest) ← readFixed? 2 (rest.filter (· ≠ ':'))
      if !rest.isEmpty || 23 < hours || 59 < minutes then none
      else some (if sign = '-' then -(hours * 60 + minutes : Int) else hours * 60 + minutes)
    else none

/-- Reads date and time; without a zone universal time is meant. -/
def ofText? (s : String) : Option Instant := do
  let (year, rest) ← readFixed? 4 s.toList
  let (month, rest) ← readMarked? '-' rest
  let (day, rest) ← readMarked? '-' rest
  if year = 0 || month < 1 || 12 < month || day < 1 || Calendar.daysIn year month < day then none
  let start ← ofDate? year month day
  match rest with
  | [] => some start
  | c :: rest =>
    if c ≠ 'T' && c ≠ 't' && c ≠ ' ' && c ≠ '_' then none
    let (hour, rest) ← readFixed? 2 rest
    let (minute, rest) ← readMarked? ':' rest
    let (second, rest) ← if rest.head? = some ':' then readMarked? ':' rest else some (0, rest)
    let (fraction, rest) ← readFraction? rest
    let zone ← readZone? rest
    if 23 < hour || 59 < minute || 59 < second then none
    start.shift? ((((hour * 60 + minute : Int) - zone) * 60 + second) * 1000000 + fraction)

/-- Shifting forward and measuring gives the shift back. -/
theorem since_of_shift? {t u : Instant} {n : Int} (h : t.shift? n = some u) : u.since t = n := by
  unfold shift? ofMicros? at h
  split at h
  · rename_i hr
    simp only [Option.some.injEq] at h
    subst h
    simp only [since]
    omega
  · cases h

example : ((ofText? "2024-01-01T00:30:00.5Z").map fun t => t.text "Z") =
    some "2024-01-01T00:30:00.500000Z" := by decide +kernel

end Instant

end UssdFlows
