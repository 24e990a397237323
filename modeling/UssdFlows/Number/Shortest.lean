import UssdFlows.Number.Binary64
import UssdFlows.Number.Decimal

/-!
# The shortest decimal text of a number

A finite number is written with the fewest significant digits that read back
to it; of two such numerals the one nearer to the number is taken.  The search
is exact: the reals that round to `m · 2 ^ q` form an interval around it, and
for a growing count of digits the two neighbours of the number on that decimal
grid are tested against the interval.

Numbers from `0.0001` up to `10 ^ 16` are written with a point and at least
one decimal; all others with one digit before the point and an exponent of at
least two digits.
-/

namespace UssdFlows.Binary64

/-- A decimal numeral: `digits · 10 ^ (exponent + 1 - length)`, that is with
the point after the first digit. -/
structure Numeral where
  digits : List Char
  exponent : Int
  deriving DecidableEq, Repr

/-- The decimal exponent of the leading digit of `num / den`. -/
def leadingExponent (num den : Nat) : Int :=
  if den ≤ num then (Nat.toDigits 10 (num / den)).length - 1
  else
    let k := (Nat.toDigits 10 (den / num)).length - 1
    if num * Nat.pow 10 k ≥ den then -(k : Int) else -(k + 1 : Nat)

/-- The interval of the reals that round to a number, as multiples of
`2 ^ (q - 2)`: lower end, the number itself, upper end. -/
def roundingInterval (m : Nat) (q : Int) : Nat × Nat × Nat :=
  let low := if m = Nat.pow 2 52 && q > leastExponent then 4 * m - 1 else 4 * m - 2
  (low, 4 * m, 4 * m + 2)

/-- Tests the neighbours of `m · 2 ^ q` on the grid of numerals with `count`
digits, given the exponent of the leading digit. -/
def onGrid? (m : Nat) (q : Int) (leading : Int) (count : Nat) : Option Numeral :=
  let (low, mid, high) := roundingInterval m q
  -- the grid unit is 10 ^ unit; everything is brought to whole multiples of 1 / den
  let unit : Int := leading + 1 - count
  let (two, twoDen) := scaled 1 1 (2 - q)
  let ten : Nat := Nat.pow 10 unit.toNat
  let tenDen : Nat := Nat.pow 10 (-unit).toNat
  let grid := ten * twoDen
  let weight := two * tenDen
  let k := mid * weight / grid
  let inside (j : Nat) : Bool :=
    if m % 2 = 0 then low * weight ≤ j * grid && j * grid ≤ high * weight
    else low * weight < j * grid && j * grid < high * weight
  let below := mid * weight - k * grid
  let above := (k + 1) * grid - mid * weight
  let pick? : Option Nat :=
    match inside k, inside (k + 1) with
    | true, true => some (if below < above || (below == above && k % 2 == 0) then k else k + 1)
    | true, false => some k
    | false, true => some (k + 1)
    | false, false => none
  pick?.map fun j =>
    let digits := Nat.toDigits 10 j
    -- the upper neighbour of 99…9 has one digit more
    ⟨digits, leading + digits.length - count⟩

/-- The numeral with the fewest digits, searched from `count` digits on. -/
def searchNumeral (m : Nat) (q : Int) (leading : Int) : (tries count : Nat) → Numeral
  | 0, count =>
    (onGrid? m q leading count).getD ⟨Nat.toDigits 10 m, leading⟩
  | tries + 1, count =>
    match onGrid? m q leading count with
    | some n => n
    | none => searchNumeral m q leading tries (count + 1)

/-- Drops the zeros at the end of a numeral's digits, all but the first digit. -/
def trimZeros (cs : List Char) : List Char :=
  match (cs.reverse.dropWhile (· == '0')).reverse with
  | [] => ['0']
  | kept => kept

/-- The shortest numeral of a positive finite number. -/
def shortestNumeral (m : Nat) (q : Int) : Numeral :=
  let (n, d) := scaled m 1 (-q)
  let found := searchNumeral m q (leadingExponent n d) 16 1
  ⟨trimZeros found.digits, found.exponent⟩

/-- How a numeral is laid out as text. -/
structure Layout where
  /-- The least exponent written with a point alone. -/
  leastPositional : Int
  /-- The first exponent above that is written with an exponent again. -/
  positionalEnd : Int
  /-- The least count of digits of a written exponent. -/
  exponentWidth : Nat

/-- Numbers from `0.0001` up to `10 ^ 16` have no exponent; a written exponent
has a sign and at least two digits. -/
def plainLayout : Layout := ⟨-4, 16, 2⟩

/-- The text of a numeral. -/
def Layout.write (layout : Layout) (n : Numeral) : String :=
  let cs := n.digits
  if layout.leastPositional ≤ n.exponent && n.exponent < layout.positionalEnd then
    match n.exponent with
    | .negSucc k => "0." ++ String.ofList (List.replicate k '0' ++ cs)
    | .ofNat k =>
      let whole := cs.take (k + 1) ++ List.replicate (k + 1 - cs.length) '0'
      let rest := cs.drop (k + 1)
      String.ofList whole ++ "." ++ (if rest.isEmpty then "0" else String.ofList rest)
  else
    let mantissa := match cs with
      | [] => "0"
      | [c] => String.ofList [c]
      | c :: rest => String.ofList (c :: '.' :: rest)
    let sign := if n.exponent < 0 then "-" else "+"
    mantissa ++ "e" ++ sign ++ Number.paddedText layout.exponentWidth n.exponent.natAbs

/-- The text of a number. -/
def text : Binary64 → String
  | notANumber => "nan"
  | infinite a => if a then "-inf" else "inf"
  | finite a m q =>
    let sign := if a then "-" else ""
    if m = 0 then sign ++ "0.0" else sign ++ plainLayout.write (shortestNumeral m q)

example : text (finite false 1 0) = "1.0" := by decide +kernel

example : text (finite true 0 (-1074)) = "-0.0" := by decide +kernel

example : text (ofDecimal false 1 (-1)) = "0.1" := by decide +kernel

example : text (ofDecimal false 1 16) = "1e+16" := by decide +kernel

example : text (ofDecimal false 1 (-7)) = "1e-07" := by decide +kernel

end UssdFlows.Binary64
