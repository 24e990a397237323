/-!
# Numbers in the binary64 format

The finite numbers of the format are the products `m · 2 ^ q` with
`m < 2 ^ 53` and `-1074 ≤ q ≤ 971`; beside them stand two infinities and the
value that is not a number.  All arithmetic is exact arithmetic on natural
numbers followed by one rounding to the nearest number of the format, a tie
going to the even significand (`ofRatio`).
-/

namespace UssdFlows

/-- A number of the binary64 format. -/
inductive Binary64 where
  /-- `significand · 2 ^ exponent`, negated if `negative`. -/
  | finite (negative : Bool) (significand : Nat) (exponent : Int)
  /-- An infinity. -/
  | infinite (negative : Bool)
  /-- The value that is not a number. -/
  | notANumber
  deriving DecidableEq, Repr

namespace Binary64

instance : Inhabited Binary64 := ⟨finite false 0 (-1074)⟩

/-- The least exponent of the format. -/
def leastExponent : Int := -1074

/-- The greatest exponent of the format. -/
def greatestExponent : Int := 971

/-- Positive zero. -/
def zero : Binary64 := finite false 0 leastExponent

/-- The quotient of two natural numbers rounded to a whole number, a half
going to the even neighbour. -/
def roundQuotient (num den : Nat) : Nat :=
  let k := num / den
  let twice := 2 * (num % den)
  if twice < den then k
  else if twice > den then k + 1
  else if k % 2 = 0 then k else k + 1

/-- Multiplies one side of a quotient so that its unit becomes `2 ^ q`. -/
def scaled (num den : Nat) (q : Int) : Nat × Nat :=
  match q with
  | .ofNat n => (num, den * Nat.pow 2 n)
  | .negSucc n => (num * Nat.pow 2 (n + 1), den)

/-- The exponent at which the quotient `num / den` has 53 binary digits, or
the least exponent if that is greater. -/
def exponentFor (num den : Nat) : Int :=
  let q : Int := (Nat.log2 num : Int) - (Nat.log2 den : Int) - 53
  let (n, d) := scaled num den q
  let q := if n / d < Nat.pow 2 53 then q else q + 1
  if q < leastExponent then leastExponent else q

/-- The number of the format that is nearest to `num / den`, negated if
`negative`; a magnitude that rounds beyond the greatest number becomes an
infinity. -/
def ofRatio (negative : Bool) (num den : Nat) : Binary64 :=
  if num = 0 then finite negative 0 leastExponent
  else
    let q := exponentFor num den
    let (n, d) := scaled num den q
    let m := roundQuotient n d
    let (m, q) := if m < Nat.pow 2 53 then (m, q) else (Nat.pow 2 52, q + 1)
    if q > greatestExponent then infinite negative else finite negative m q

/-- The number nearest to a whole number. -/
def ofInt (n : Int) : Binary64 := ofRatio (n < 0) n.natAbs 1

/-- The number nearest to `digits · 10 ^ exponent`.  Magnitudes far outside
the format are settled by their count of digits. -/
def ofDecimal (negative : Bool) (digits : Nat) (exponent : Int) : Binary64 :=
  let length : Int := (Nat.toDigits 10 digits).length
  if digits = 0 then finite negative 0 leastExponent
  else if length + exponent > 400 then infinite negative
  else if length + exponent < -400 then finite negative 0 leastExponent
  else match exponent with
    | .ofNat n => ofRatio negative (digits * Nat.pow 10 n) 1
    | .negSucc n => ofRatio negative digits (Nat.pow 10 (n + 1))

/-! ## Order -/

/-- Whether the number is neither an infinity nor not a number. -/
def isFinite : Binary64 → Bool
  | finite .. => true
  | _ => false

/-- The whole number by which `2 ^ q` must be multiplied to give a finite
number; exact if `q` is not above its exponent. -/
def units (negative : Bool) (significand : Nat) (exponent q : Int) : Int :=
  let m : Int := significand * Nat.pow 2 (exponent - q).toNat
  if negative then -m else m

/-- The order of two numbers, or nothing if one of them is not a number. -/
def compare? : Binary64 → Binary64 → Option Ordering
  | notANumber, _ => none
  | _, notANumber => none
  | infinite a, infinite b => some (Ord.compare b.toNat a.toNat)
  | infinite a, finite .. => some (if a then .lt else .gt)
  | finite .., infinite b => some (if b then .gt else .lt)
  | finite a m p, finite b n q =>
    let r := min p q
    some (Ord.compare (units a m p r) (units b n q r))

/-- Whether one number is less than another. -/
def less (x y : Binary64) : Bool := compare? x y == some .lt

/-- Whether two numbers are equal in value; both zeros are equal and nothing
equals the value that is not a number. -/
def equal (x y : Binary64) : Bool := compare? x y == some .eq

/-- Whether a number is greater than a whole number, which is not rounded for it. -/
def exceeds (x : Binary64) (n : Int) : Bool := (finite (n < 0) n.natAbs 0).less x

/-! ## Arithmetic -/

/-- The number nearest to `k · 2 ^ q`. -/
def ofUnits (k q : Int) : Binary64 :=
  let (n, d) := scaled k.natAbs 1 (-q)
  ofRatio (k < 0) n d

/-- The sum of two numbers, rounded once. -/
def add : Binary64 → Binary64 → Binary64
  | finite a m p, finite b n q =>
    let r := min p q
    let k := units a m p r + units b n q r
    if k = 0 then finite (a && b) 0 leastExponent else ofUnits k r
  | notANumber, _ => notANumber
  | _, notANumber => notANumber
  | infinite a, infinite b => if a = b then infinite a else notANumber
  | infinite a, finite .. => infinite a
  | finite .., infinite b => infinite b

/-- A number divided by a positive natural number, rounded once. -/
def divNat (x : Binary64) (k : Nat) : Binary64 :=
  match x with
  | finite a m q =>
    let (n, d) := scaled m 1 (-q)
    ofRatio a n (d * k)
  | other => other

/-- A number multiplied by a natural number, rounded once. -/
def timesNat (x : Binary64) (k : Nat) : Binary64 :=
  match x with
  | finite a m q =>
    let (n, d) := scaled m 1 (-q)
    ofRatio a (n * k) d
  | other => other

/-- The number of the same magnitude and the other sign. -/
def negate : Binary64 → Binary64
  | finite a m q => finite (!a) m q
  | infinite a => infinite (!a)
  | notANumber => notANumber

/-- A number rounded to a count of decimal places, a half going to the even
neighbour, and then to the nearest number of the format. -/
def roundPlaces (x : Binary64) (places : Nat) : Binary64 :=
  match x with
  | finite a m q =>
    let (n, d) := scaled m 1 (-q)
    ofRatio a (roundQuotient (n * Nat.pow 10 places) d) (Nat.pow 10 places)
  | other => other

/-- The whole number that a finite number is, if it has no fraction. -/
def toInt? : Binary64 → Option Int
  | finite a m q =>
    let (n, d) := scaled m 1 (-q)
    if n % d = 0 then
      let k : Int := (n / d : Nat)
      some (if a then -k else k)
    else none
  | _ => none

/-! ## Laws -/

/-- A rounded quotient is one of the two whole numbers around the quotient. -/
theorem roundQuotient_bounds (num den : Nat) :
    num / den ≤ roundQuotient num den ∧ roundQuotient num den ≤ num / den + 1 := by
  simp only [roundQuotient]
  split
  · omega
  · split
    · omega
    · split <;> omega

end Binary64

end UssdFlows
