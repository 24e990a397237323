import UssdFlows.Document.Display

/-!
# Places in a block-notation text

The block notation cares about columns, so a place carries its line and
column besides the characters that follow it.  A text may only hold
characters that can be shown, tabs and line breaks.
-/

namespace UssdFlows.Yaml

/-- Why a text is not a document in block notation. -/
inductive Fault where
  /-- A character that must not stand in a document. -/
  | unprintable (c : Char)
  /-- The notation requires something else at this place. -/
  | expected (what : String)
  | severalDocuments
  | unknownAlias (name : String)
  | repeatedAnchor (name : String)
  | unknownTag (tag : String)
  /-- A value does not have the shape that its tag requires. -/
  | wrongShape (tag : String)
  | unusableKey
  /-- An escape for a number that is no character. -/
  | noCharacter (code : Nat)
  | noWhole (base : Nat) (text : String)
  | noReal (text : String)
  | noTruth (text : String)
  /-- A number with so many parts that it is beyond all bounds. -/
  | tooLarge
  /-- A number without any character. -/
  | emptyNumber
  | tooManyDigits (count : Nat)
  | noMoment
  /-- A date or time of day that does not exist. -/
  | impossibleMoment (reason : String)
  /-- The octets are not text. -/
  | undecodable
  /-- The reader gave up for want of something that the text does not decide,
  such as room for nested values. -/
  | raised (message : String)
  deriving DecidableEq, Repr

/-- Whether a fault is one of the notation, and not of what cannot be represented. -/
def Fault.isGrammar : Fault → Bool
  | unprintable _ | expected _ | severalDocuments | unknownAlias _ | repeatedAnchor _ | unknownTag _
  | wrongShape _ | unusableKey => true
  | noCharacter _ | noWhole .. | noReal _ | noTruth _ | tooLarge | emptyNumber | tooManyDigits _
  | noMoment | impossibleMoment _ | undecodable | raised _ => false

/-- Whether a fault leaves it open what else could be made of a text.  A reader that does
not look ahead meets the lines before a character that must not stand there, and an alias
may be followed into the node that it stands in. -/
def Fault.isOpen : Fault → Bool
  | unprintable _ | unknownAlias _ => true
  | _ => false

/-- The wording of a fault. -/
def Fault.message : Fault → String
  | unprintable c => "unacceptable character #x" ++ String.ofList (Value.hexText 4 c.toNat)
  | expected what => "expected " ++ what
  | severalDocuments => "expected a single document in the stream"
  | unknownAlias name => "found undefined alias " ++ Value.quoted name
  | repeatedAnchor name => "found duplicate anchor " ++ Value.quoted name
  | unknownTag tag => "could not determine a constructor for the tag " ++ Value.quoted tag
  | wrongShape tag => "expected another kind of node for the tag " ++ Value.quoted tag
  | unusableKey => "found unhashable key"
  | noCharacter _ => "chr() arg not in range(0x110000)"
  | noWhole base text =>
    "invalid literal for int() with base " ++ Number.natText base ++ ": " ++ Value.quoted text
  | noReal text => "could not convert string to float: " ++ Value.quoted text
  | noTruth text => text
  | tooLarge => "int too large to convert to float"
  | emptyNumber => "string index out of range"
  | tooManyDigits count => Number.digitLimitText count
  | noMoment => "'NoneType' object has no attribute 'groupdict'"
  | impossibleMoment reason => reason
  | undecodable => "the file is not encoded in UTF-8"
  | raised message => message

/-- Whether a character may stand in a document. -/
def isAllowed (c : Char) : Bool :=
  let n := c.toNat
  n = 0x9 || n = 0xA || n = 0xD || (0x20 ≤ n && n ≤ 0x7E) || n = 0x85 ||
    (0xA0 ≤ n && n ≤ 0xFFFD) || 0x10000 ≤ n

/-- Whether a character ends a line. -/
def isBreak (c : Char) : Bool :=
  c = '\r' || c = '\n' || c = '\x85' || c = '\u2028' || c = '\u2029'

/-- Whether a character separates words. -/
def isGap (c : Char) : Bool := c = ' ' || c = '\t' || isBreak c

/-- Whether the text ends at a place or goes on with a gap. -/
def atGap : List Char → Bool
  | [] => true
  | c :: _ => isGap c

/-- Whether the text ends at a place or goes on with a space or a line break. -/
def atSpace : List Char → Bool
  | [] => true
  | c :: _ => c = ' ' || isBreak c

/-- Whether the line ends at a place. -/
def atBreak : List Char → Bool
  | [] => true
  | c :: _ => isBreak c

/-- Whether a place holds one of two document markers. -/
def atMarker : List Char → Bool
  | '-' :: '-' :: '-' :: rest => atGap rest
  | '.' :: '.' :: '.' :: rest => atGap rest
  | _ => false

/-- A place in a text and what follows it. -/
structure Cursor where
  index : Nat
  line : Nat
  column : Nat
  rest : List Char
  deriving DecidableEq, Repr

namespace Cursor

/-- The start of a text. -/
def start (s : String) : Cursor := ⟨0, 0, 0, s.toList⟩

/-- Moves past one character.  A byte order mark has no width. -/
def next (c : Cursor) : Cursor :=
  match c.rest with
  | [] => c
  | ch :: rest =>
    if isBreak ch && !(ch = '\r' && rest.head? = some '\n') then ⟨c.index + 1, c.line + 1, 0, rest⟩
    else if ch = '\uFEFF' then ⟨c.index + 1, c.line, c.column, rest⟩
    else ⟨c.index + 1, c.line, c.column + 1, rest⟩

/-- Moves past several characters. -/
def skip (c : Cursor) : Nat → Cursor
  | 0 => c
  | n + 1 => c.next.skip n

/-- The characters that satisfy `p` up to the first that does not, and the
place after them. -/
def span (p : Char → Bool) (c : Cursor) : List Char × Cursor :=
  let run := c.rest.takeWhile p
  (run, c.skip run.length)

/-- Moves past characters that satisfy `p`. -/
def skipWhile (p : Char → Bool) (c : Cursor) : Cursor := (c.span p).2

/-- A line break, as the character it stands for, and the place after it;
nothing if the line goes on. -/
def lineBreak (c : Cursor) : List Char × Cursor :=
  match c.rest with
  | '\r' :: '\n' :: _ => (['\n'], c.skip 2)
  | ch :: _ =>
    if ch = '\u2028' || ch = '\u2029' then ([ch], c.next)
    else if isBreak ch then (['\n'], c.next)
    else ([], c)
  | [] => ([], c)

/-- Moves past spaces and a comment to the end of the line, and past the line break. -/
def endLine (c : Cursor) : Except Fault Cursor :=
  let c := c.skipWhile (· = ' ')
  let c := if c.rest.head? = some '#' then c.skipWhile (!isBreak ·) else c
  if atBreak c.rest then .ok c.lineBreak.2 else .error (.expected "a comment or a line break")

theorem rest_next (c : Cursor) : c.next.rest = c.rest.tail := by
  unfold next
  split
  · simp_all
  · rename_i h
    split
    · simp [h]
    · split <;> simp [h]

/-- Moving on drops characters from the front and nothing else. -/
theorem rest_skip (c : Cursor) (n : Nat) : (c.skip n).rest = c.rest.drop n := by
  induction n generalizing c with
  | zero => rfl
  | succ n ih => rw [skip, ih, rest_next, ← List.drop_one, List.drop_drop, Nat.add_comm]

end Cursor

end UssdFlows.Yaml
