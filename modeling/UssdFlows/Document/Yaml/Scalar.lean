import UssdFlows.Document.Yaml.Cursor
import UssdFlows.Number.Radix

/-!
# Scalars in block notation

A scalar is written plain, in single or double quotes, or as an indented block
after `|` or `>`.  Lines of plain and quoted scalars are folded: one line
break is a space, several line breaks are one less.
-/

namespace UssdFlows.Yaml

/-! ## Quoted scalars -/

/-- The character that a one-letter escape stands for. -/
def escaped? : Char → Option Char
  | '0' => some '\x00'
  | 'a' => some '\x07'
  | 'b' => some '\x08'
  | 't' => some '\t'
  | '\t' => some '\t'
  | 'n' => some '\n'
  | 'v' => some '\x0b'
  | 'f' => some '\x0c'
  | 'r' => some '\r'
  | 'e' => some '\x1b'
  | ' ' => some ' '
  | '"' => some '"'
  | '\\' => some '\\'
  | '/' => some '/'
  | 'N' => some '\x85'
  | '_' => some '\xa0'
  | 'L' => some '\u2028'
  | 'P' => some '\u2029'
  | _ => none

/-- The number of hexadecimal digits after a letter that opens a numeric escape. -/
def codeLength? : Char → Option Nat
  | 'x' => some 2
  | 'u' => some 4
  | 'U' => some 8
  | _ => none

/-- The character with a code; a code between the planes of text has none of
its own and is replaced. -/
def charOfCode (code : Nat) : Except Fault Char :=
  if code < 0x110000 then
    .ok (if code.isValidChar then Char.ofNat code else '\uFFFD')
  else .error (.noCharacter code)

/-- Further line breaks inside quotes, with the blanks before them; a document
marker must not stand at the start of a line. -/
def quotedBreaks : (fuel : Nat) → Cursor → Except Fault (List Char × Cursor)
  | 0, c => .ok ([], c)
  | fuel + 1, c =>
    if atMarker c.rest then .error (.expected "the end of a quoted scalar")
    else
      let c := c.skipWhile fun ch => ch = ' ' || ch = '\t'
      let (mark, after) := c.lineBreak
      if mark.isEmpty then .ok ([], c)
      else do
        let (more, after) ← quotedBreaks fuel after
        return (mark ++ more, after)

/-- Blanks and line breaks inside quotes, folded. -/
def quotedGap (c : Cursor) : Except Fault (List Char × Cursor) :=
  let (blanks, c) := c.span fun ch => ch = ' ' || ch = '\t'
  if c.rest.isEmpty then .error (.expected "the end of a quoted scalar")
  else
    let (mark, after) := c.lineBreak
    if mark.isEmpty then .ok (blanks, c)
    else do
      let (more, after) ← quotedBreaks (after.rest.length + 1) after
      let first := if mark ≠ ['\n'] then mark else if more.isEmpty then [' '] else []
      return (first ++ more, after)

/-- An escape in double quotes; the place is behind the backslash. -/
def escapedChars (c : Cursor) : Except Fault (List Char × Cursor) :=
  match c.rest with
  | [] => .error (.expected "an escape character")
  | ch :: _ =>
    match escaped? ch, codeLength? ch with
    | some e, _ => .ok ([e], c.next)
    | none, some count =>
      let digits := c.next.rest.take count
      match Number.readRadix? 16 digits with
      | some code =>
        if digits.length = count then do
          let e ← charOfCode code
          return ([e], c.next.skip count)
        else .error (.expected "hexadecimal digits")
      | none => .error (.expected "hexadecimal digits")
    | none, none =>
      if isBreak ch then
        let after := c.lineBreak.2
        quotedBreaks (after.rest.length + 1) after
      else .error (.expected "an escape character")

/-- The characters inside quotes up to a gap or the closing quote. -/
def quotedRun (double : Bool) : (fuel : Nat) → Cursor → Except Fault (List Char × Cursor)
  | 0, c => .ok ([], c)
  | fuel + 1, c =>
    let go (piece : List Char) (after : Cursor) : Except Fault (List Char × Cursor) := do
      let (more, after) ← quotedRun double fuel after
      return (piece ++ more, after)
    match c.rest with
    | [] => .ok ([], c)
    | ch :: rest =>
      if isGap ch then .ok ([], c)
      else if double then
        if ch = '"' then .ok ([], c)
        else if ch = '\\' then do
          let (piece, after) ← escapedChars c.next
          go piece after
        else go [ch] c.next
      else if ch = '\'' then
        if rest.head? = some '\'' then go ['\''] (c.skip 2) else .ok ([], c)
      else go [ch] c.next

/-- The inside of a quoted scalar, and the place behind the closing quote. -/
def quotedInside (double : Bool) : (fuel : Nat) → Cursor → Except Fault (List Char × Cursor)
  | 0, _ => .error (.expected "the end of a quoted scalar")
  | fuel + 1, c => do
    let (run, c) ← quotedRun double (c.rest.length + 1) c
    if c.rest.head? = some (if double then '"' else '\'') then return (run, c.next)
    else
      let (gap, c) ← quotedGap c
      let (more, c) ← quotedInside double fuel c
      return (run ++ gap ++ more, c)

/-- A quoted scalar; the place is on the opening quote. -/
def quotedScalar (double : Bool) (c : Cursor) : Except Fault (String × Cursor) := do
  let (text, after) ← quotedInside double (c.rest.length + 1) c.next
  return (String.ofList text, after)

/-! ## Plain scalars -/

/-- The characters that may not stand in a plain scalar inside brackets. -/
def isBracketMark (ch : Char) : Bool :=
  ch = ',' || ch = '?' || ch = '[' || ch = ']' || ch = '\x7b' || ch = '\x7d'

/-- Whether a colon before these characters ends a plain scalar. -/
def afterKey (inFlow : Bool) : List Char → Bool
  | [] => true
  | ch :: _ => isGap ch || (inFlow && (isBracketMark ch && ch ≠ '?'))

/-- The characters of a plain scalar up to a gap or an indicator. -/
def plainRun (inFlow : Bool) : List Char → List Char
  | [] => []
  | ch :: rest =>
    if isGap ch || (ch = ':' && afterKey inFlow rest) || (inFlow && isBracketMark ch) then []
    else ch :: plainRun inFlow rest

/-- Further line breaks inside a plain scalar, with the spaces around them;
nothing if a document marker starts a line. -/
def plainBreaks : (fuel : Nat) → Cursor → Option (List Char) × Cursor
  | 0, c => (some [], c)
  | fuel + 1, c =>
    match c.rest with
    | [] => (some [], c)
    | ch :: _ =>
      if ch = ' ' then plainBreaks fuel c.next
      else if isBreak ch then
        let (mark, after) := c.lineBreak
        if atMarker after.rest then (none, after)
        else
          let (more, after) := plainBreaks fuel after
          (more.map (mark ++ ·), after)
      else (some [], c)

/-- What stands between two runs of a plain scalar. -/
structure PlainGap where
  /-- The gap, folded; none if the scalar ends here. -/
  text : List Char
  /-- Whether a line ended in it. -/
  broken : Bool
  after : Cursor

/-- Spaces and line breaks inside a plain scalar, folded. -/
def plainGap (c : Cursor) : PlainGap :=
  let (blanks, c) := c.span (· = ' ')
  let (mark, after) := c.lineBreak
  if mark.isEmpty then ⟨blanks, false, c⟩
  else if atMarker after.rest then ⟨[], true, after⟩
  else
    match plainBreaks (after.rest.length + 1) after with
    | (none, after) => ⟨[], true, after⟩
    | (some more, after) =>
      ⟨(if mark ≠ ['\n'] then mark else if more.isEmpty then [' '] else []) ++ more, true, after⟩

/-- A plain scalar that goes on after a gap.  `indent` is the least column of
its lines outside brackets.  The last part of the result says whether a line
ended behind the scalar. -/
def plainFrom (inFlow : Bool) (indent : Int) :
    (fuel : Nat) → (gap : List Char) → (broken : Bool) → Cursor → List Char × Bool × Cursor
  | 0, _, broken, c => ([], broken, c)
  | fuel + 1, gap, broken, c =>
    let run := plainRun inFlow c.rest
    if c.rest.head? = some '#' || run.isEmpty then ([], broken, c)
    else
      let g := plainGap (c.skip run.length)
      if g.text.isEmpty || g.after.rest.head? = some '#' ||
          (!inFlow && (g.after.column : Int) < indent) then
        (gap ++ run, g.broken, g.after)
      else
        let (more, broken, after) := plainFrom inFlow indent fuel g.text g.broken g.after
        (gap ++ run ++ more, broken, after)

/-- A plain scalar. -/
def plainScalar (inFlow : Bool) (indent : Int) (c : Cursor) : String × Bool × Cursor :=
  let (text, broken, after) := plainFrom inFlow indent (c.rest.length + 1) [] false c
  (String.ofList text, broken, after)

/-! ## Block scalars -/

/-- What happens to the line breaks at the end of a block scalar. -/
inductive Chomping where
  | strip
  | clip
  | keep
  deriving DecidableEq, Repr

/-- The head of a block scalar: what happens to its end, and how far it is
indented, if given. -/
structure BlockHead where
  chomping : Chomping
  increment : Option Nat

/-- A sign for the end of a block scalar, if there is one. -/
def chomping? (c : Cursor) : Option Chomping :=
  match c.rest with
  | '+' :: _ => some .keep
  | '-' :: _ => some .strip
  | _ => none

/-- An indentation of a block scalar, if there is one; it is not zero. -/
def increment? (c : Cursor) : Except Fault (Option Nat) :=
  match c.rest with
  | ch :: _ =>
    if ch = '0' then .error (.expected "an indentation indicator from 1 to 9")
    else .ok (if ch.isDigit then some (Number.digitOf ch) else none)
  | [] => .ok none

/-- Reads the head of a block scalar; its two parts stand in either order. -/
def blockHead (c : Cursor) : Except Fault (BlockHead × Cursor) := do
  let (head, c) ← match chomping? c with
    | some how => do
      let increment ← increment? c.next
      pure (⟨how, increment⟩, if increment.isSome then c.next.next else c.next)
    | none => do
      match ← increment? c with
      | some n =>
        match chomping? c.next with
        | some how => pure (⟨how, some n⟩, c.next.next)
        | none => pure (⟨.clip, some n⟩, c.next)
      | none => pure (BlockHead.mk .clip none, c)
  if atSpace c.rest then return (head, c) else .error (.expected "chomping or indentation indicators")

/-- Empty lines before the first line of a block scalar, with the greatest
column that their spaces reach. -/
def blockStart : (fuel : Nat) → (widest : Nat) → Cursor → List Char × Nat × Cursor
  | 0, widest, c => ([], widest, c)
  | fuel + 1, widest, c =>
    match c.rest with
    | [] => ([], widest, c)
    | ch :: _ =>
      if ch = ' ' then blockStart fuel (max widest c.next.column) c.next
      else if isBreak ch then
        let (mark, after) := c.lineBreak
        let (more, widest, after) := blockStart fuel widest after
        (mark ++ more, widest, after)
      else ([], widest, c)

/-- Moves past spaces up to a column. -/
def Cursor.indentTo (column : Nat) (c : Cursor) : Cursor :=
  c.skip ((c.rest.takeWhile (· = ' ')).take (column - c.column)).length

/-- Empty lines inside a block scalar, and the place at its indentation. -/
def blockBreaks (indent : Nat) : (fuel : Nat) → Cursor → List Char × Cursor
  | 0, c => ([], c)
  | fuel + 1, c =>
    let c := c.indentTo indent
    let (mark, after) := c.lineBreak
    if mark.isEmpty then ([], c)
    else
      let (more, after) := blockBreaks indent fuel after
      (mark ++ more, after)

/-- Whether a line of a block scalar starts with a blank. -/
def startsBlank (c : Cursor) : Bool := c.rest.head? = some ' ' || c.rest.head? = some '\t'

/-- The lines of a block scalar: their text, the line break behind the last
one, the empty lines that follow it, and the place after them. -/
def blockLines (folded : Bool) (indent : Nat) :
    (fuel : Nat) → (breaks : List Char) → Cursor → List Char × List Char × List Char × Cursor
  | 0, breaks, c => ([], [], breaks, c)
  | fuel + 1, breaks, c =>
    if c.column = indent ∧ !c.rest.isEmpty then
      let (line, eol) := c.span (!isBreak ·)
      let (mark, after) := eol.lineBreak
      let (more, after) := blockBreaks indent (after.rest.length + 1) after
      if after.column = indent ∧ !after.rest.isEmpty then
        let joint :=
          if folded ∧ mark = ['\n'] ∧ !startsBlank c ∧ !startsBlank after then
            if more.isEmpty then [' '] else []
          else mark
        let (text, last, ending, after) := blockLines folded indent fuel more after
        (breaks ++ line ++ joint ++ text, last, ending, after)
      else (breaks ++ line, mark, more, after)
    else ([], [], breaks, c)

/-- A block scalar; the place is on its indicator, and `parent` is the
indentation of the collection around it. -/
def blockScalar (folded : Bool) (parent : Int) (c : Cursor) : Except Fault (String × Cursor) := do
  let (head, c) ← blockHead c.next
  let c ← c.endLine
  let least := max 1 (parent + 1).toNat
  let fuel := c.rest.length + 1
  let (indent, breaks, c) := match head.increment with
    | none =>
      let (breaks, widest, c) := blockStart fuel 0 c
      (max least widest, breaks, c)
    | some n =>
      let indent := least + n - 1
      let (breaks, c) := blockBreaks indent fuel c
      (indent, breaks, c)
  let (text, last, ending, c) := blockLines folded indent (c.rest.length + 1) breaks c
  let tail := match head.chomping with
    | .strip => []
    | .clip => last
    | .keep => last ++ ending
  return (String.ofList (text ++ tail), c)

end UssdFlows.Yaml
