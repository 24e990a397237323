/-!
# Numerals of any base

Digits beyond nine are the letters from a on, small or capital.
-/

namespace UssdFlows.Number

/-- The value of a digit or letter as a digit. -/
def radixDigit? (c : Char) : Option Nat :=
  let n := c.toNat
  if '0'.toNat ≤ n && n ≤ '9'.toNat then some (n - '0'.toNat)
  else if 'a'.toNat ≤ n && n ≤ 'z'.toNat then some (n - 'a'.toNat + 10)
  else if 'A'.toNat ≤ n && n ≤ 'Z'.toNat then some (n - 'A'.toNat + 10)
  else none

/-- The value of a character as a digit of a base. -/
def digitIn? (base : Nat) (c : Char) : Option Nat :=
  (radixDigit? c).filter fun d => d < base

/-- The value of a hexadecimal digit. -/
def hexDigit? (c : Char) : Option Nat := digitIn? 16 c

/-- The number written by digits of a base; no digits write zero. -/
def readRadix? (base : Nat) (cs : List Char) : Option Nat :=
  cs.foldl (fun n c => n.bind fun n => (digitIn? base c).map (base * n + ·)) (some 0)

end UssdFlows.Number
