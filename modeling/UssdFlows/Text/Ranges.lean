/-!
# Tables of character ranges

A class of characters is stored as the list of its ranges of code points, in
ascending order and with both ends included.
-/

namespace UssdFlows.Text

/-- The range of a table that holds a character. -/
def rangeOf? (table : List (Nat × Nat)) (c : Char) : Option (Nat × Nat) :=
  table.find? fun r => r.1 ≤ c.toNat && c.toNat ≤ r.2

/-- Whether a table holds a character. -/
def inRanges (table : List (Nat × Nat)) (c : Char) : Bool := (rangeOf? table c).isSome

/-- A table holds a character exactly if one of its ranges does. -/
theorem inRanges_iff {table : List (Nat × Nat)} {c : Char} :
    inRanges table c = true ↔ ∃ r ∈ table, r.1 ≤ c.toNat ∧ c.toNat ≤ r.2 := by
  simp [inRanges, rangeOf?]

end UssdFlows.Text
