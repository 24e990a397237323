import UssdFlows.Number.Radix

/-!
# Percent codes

A percent sign with two hexadecimal digits stands for an octet; every other
character stands for its own octets.  The octets are read as UTF-8 text, with a
replacement character for every piece that is none: `decode` never fails, and
what is plain ASCII already is read as it stands.
-/

namespace UssdFlows.Percent

/-- The octets of a character. -/
def charOctets (c : Char) : List Nat :=
  if c.toNat < 0x80 then [c.toNat] else (String.singleton c).toUTF8.toList.map UInt8.toNat

/-- The octets that a text with percent codes stands for.  A percent sign
without two digits stands for itself. -/
def octets : List Char → List Nat
  | '%' :: a :: b :: rest =>
    match Number.readRadix? 16 [a, b] with
    | some n => n :: octets rest
    | none => 0x25 :: octets (a :: b :: rest)
  | c :: rest => charOctets c ++ octets rest
  | [] => []

/-- What a first octet announces: its part of the code point, how many octets
follow, and the bounds of the next one. -/
structure Lead where
  bits : Nat
  count : Nat
  low : Nat
  high : Nat
  deriving DecidableEq, Repr

/-- What a first octet announces, if a character can start with it. -/
def Lead.ofOctet? (b : Nat) : Option Lead :=
  if b < 0x80 then some ⟨b, 0, 0x80, 0xBF⟩
  else if b < 0xC2 then none
  else if b < 0xE0 then some ⟨b - 0xC0, 1, 0x80, 0xBF⟩
  else if b < 0xF0 then
    some ⟨b - 0xE0, 2, if b = 0xE0 then 0xA0 else 0x80, if b = 0xED then 0x9F else 0xBF⟩
  else if b < 0xF5 then
    some ⟨b - 0xF0, 3, if b = 0xF0 then 0x90 else 0x80, if b = 0xF4 then 0x8F else 0xBF⟩
  else none

/-- The octets that may follow, so many at most; bounds are given for the first one. -/
def following (low high : Nat) : (count : Nat) → List Nat → List Nat
  | count + 1, b :: rest =>
    if low ≤ b && b ≤ high then b :: following 0x80 0xBF count rest else []
  | _, _ => []

/-- Reads octets as text.  An octet that starts no character, and the start of a
character that is not finished, are read as one replacement character. -/
def read : List Nat → List Char
  | [] => []
  | b :: rest =>
    match Lead.ofOctet? b with
    | none => '\uFFFD' :: read rest
    | some lead =>
      let more := following lead.low lead.high lead.count rest
      let c := if more.length = lead.count
        then Char.ofNat (more.foldl (fun n d => 64 * n + d % 64) lead.bits) else '\uFFFD'
      c :: read (rest.drop more.length)
termination_by bs => bs.length
decreasing_by
  · simp
  · simp only [List.length_drop, List.length_cons]
    omega

/-- A text with its percent codes resolved. -/
def decode (s : String) : String := String.ofList (read (octets s.toList))

example : decode "a%20b%2" = "a b%2" := by cbv

example : decode "%C3%a9%ff%E2%82" = "é\uFFFD\uFFFD" := by cbv

end UssdFlows.Percent
