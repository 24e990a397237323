import UssdFlows.Document.Yaml.Scalar

/-!
# Tokens of block notation

The text is cut into tokens from left to right.  Indentation opens and closes
collections: a column further right than the current one opens a block, a
column further left closes all blocks that are deeper.

Whether a scalar is a key shows only at the colon after it.  So every place
where a key may start is remembered, one for each level of brackets, and the
tokens that open a key are put there when the colon is met.  A key ends on its
line and within 1024 characters.
-/

namespace UssdFlows.Yaml

/-- What a directive line says. -/
inductive Directive where
  | version (major : Nat)
  | tagHandle (handle uriStart : String)
  | other
  deriving DecidableEq, Repr

/-- The tokens of a document. -/
inductive Token where
  | directive (d : Directive)
  | documentStart
  | documentEnd
  | streamEnd
  | sequenceStart
  | mappingStart
  | blockEnd
  | openBracket
  | closeBracket
  | openBrace
  | closeBrace
  | comma
  /-- A dash before an item of a sequence. -/
  | dash
  | key
  | value
  | alias (name : String)
  | anchor (name : String)
  | tag (handle : Option String) (ending : String)
  | scalar (text : String) (plain : Bool)
  deriving DecidableEq, Repr

/-- A place where a key may have started. -/
structure PossibleKey where
  /-- The number of brackets open around it. -/
  level : Nat
  /-- The number of tokens before it. -/
  position : Nat
  /-- Whether it must turn out to be a key. -/
  isRequired : Bool
  index : Nat
  line : Nat
  column : Nat

/-- The state of cutting a text into tokens. -/
structure Lexer where
  cursor : Cursor
  /-- The number of brackets that are open. -/
  level : Nat
  tokens : Array Token
  /-- The column of the innermost block, -1 outside all blocks. -/
  indent : Int
  /-- The columns of the blocks around it. -/
  outer : List Int
  /-- Whether a key may start here. -/
  keyAllowed : Bool
  possible : List PossibleKey

/-- A step of cutting a text into tokens. -/
abbrev Lexing := StateT Lexer (Except Fault)

namespace Lexing

/-! ## Blocks and possible keys -/

/-- Refuses the text. -/
def refuse {α : Type} (what : String) : Lexing α := throw (.expected what)

/-- Adds a token. -/
def emit (t : Token) : Lexing Unit := modify fun l => { l with tokens := l.tokens.push t }

/-- Moves to another place. -/
def goTo (c : Cursor) : Lexing Unit := modify fun l => { l with cursor := c }

/-- Says whether a key may start at the next token. -/
def allowKey (b : Bool) : Lexing Unit := modify fun l => { l with keyAllowed := b }

/-- Forgets the possible keys that satisfy `p`; none of them may be required. -/
def forget (p : PossibleKey → Bool) : Lexing Unit := do
  let l ← get
  if l.possible.any fun k => p k && k.isRequired then refuse "a colon after a key"
  else set { l with possible := l.possible.filter fun k => !p k }

/-- Forgets the possible keys that end on an earlier line or are too long. -/
def forgetStale : Lexing Unit := do
  let c := (← get).cursor
  forget fun k => k.line ≠ c.line || 1024 + k.index < c.index

/-- Forgets the possible key of the current level. -/
def forgetHere : Lexing Unit := do
  let level := (← get).level
  forget fun k => k.level = level

/-- Remembers that a key may start here. -/
def remember : Lexing Unit := do
  let l ← get
  if l.keyAllowed then
    forgetHere
    modify fun m => { m with possible :=
      { level := l.level, position := l.tokens.size,
        isRequired := l.level = 0 && l.indent = (l.cursor.column : Int),
        index := l.cursor.index, line := l.cursor.line, column := l.cursor.column } :: m.possible }

/-- Closes the blocks that are deeper than a column. -/
def closeBlocks (column : Int) : Lexing Unit := do
  let l ← get
  if l.level = 0 then
    let rec go : Int → List Int → Array Token → Int × List Int × Array Token
      | indent, [], ts => (indent, [], ts)
      | indent, o :: outer, ts =>
        if column < indent then go o outer (ts.push .blockEnd) else (indent, o :: outer, ts)
    let (indent, outer, tokens) := go l.indent l.outer l.tokens
    set { l with indent, outer, tokens }

/-- Opens a block at a column further right than the current one; the token
that opens it is put at a position. -/
def openBlock (column : Nat) (t : Token) (position : Nat) : Lexing Unit :=
  modify fun l =>
    if l.indent < (column : Int) then
      { l with
        indent := (column : Int), outer := l.indent :: l.outer
        tokens := l.tokens.insertIdxIfInBounds position t }
    else l

/-! ## Names, tags and directives -/

/-- Whether a character may stand in the name of an anchor or a directive. -/
def isNameChar (ch : Char) : Bool := ch.isAlphanum || ch = '-' || ch = '_'

/-- Whether a character may stand in the address of a tag. -/
def isAddressChar (ch : Char) : Bool := ch.isAlphanum || "-;/?:@&=+$,_.!~*'()[]%".contains ch

/-- The octets of escapes in an address, and the place after them. -/
def addressOctets : (fuel : Nat) → Cursor → Except Fault (List UInt8 × Cursor)
  | 0, c => .ok ([], c)
  | fuel + 1, c =>
    match c.rest with
    | '%' :: a :: b :: _ =>
      match Number.readRadix? 16 [a, b] with
      | some n => do
        let (more, after) ← addressOctets fuel (c.skip 3)
        return (n.toUInt8 :: more, after)
      | none => .error (.expected "an escape of two hexadecimal digits")
    | '%' :: _ => .error (.expected "an escape of two hexadecimal digits")
    | _ => .ok ([], c)

/-- The address of a tag: letters and escapes. -/
def addressFrom : (fuel : Nat) → Cursor → Except Fault (List Char × Cursor)
  | 0, c => .ok ([], c)
  | fuel + 1, c =>
    match c.rest with
    | [] => .ok ([], c)
    | ch :: _ =>
      if ch = '%' then do
        let (octets, after) ← addressOctets (c.rest.length + 1) c
        match String.fromUTF8? ⟨octets.toArray⟩ with
        | some s =>
          let (more, after) ← addressFrom fuel after
          return (s.toList ++ more, after)
        | none => throw (.expected "escapes that spell characters")
      else if isAddressChar ch then do
        let (more, after) ← addressFrom fuel c.next
        return (ch :: more, after)
      else .ok ([], c)

/-- Reads the address of a tag, which is not empty. -/
def address : Lexing String := do
  let c := (← get).cursor
  let (text, after) ← addressFrom (c.rest.length + 1) c
  if text.isEmpty then refuse "an address"
  else
    goTo after
    return String.ofList text

/-- Reads a handle: one or two exclamation marks, letters between the two. -/
def handle : Lexing String := do
  let c := (← get).cursor
  match c.rest with
  | '!' :: rest =>
    let letters := rest.takeWhile isNameChar
    let more := rest.drop letters.length
    if more.head? = some '!' then
      goTo (c.skip (letters.length + 2))
      return String.ofList ('!' :: letters ++ ['!'])
    else if rest.head? = some ' ' then
      goTo c.next
      return "!"
    else refuse "an exclamation mark"
  | _ => refuse "an exclamation mark"

/-- Reads a tag. -/
def tagToken : Lexing Token := do
  let c := (← get).cursor
  let result ← match c.rest.tail with
    | '<' :: _ => do
      goTo (c.skip 2)
      let ending ← address
      let after := (← get).cursor
      if after.rest.head? = some '>' then
        goTo after.next
        pure (Token.tag none ending)
      else refuse "a closing bracket"
    | rest =>
      if atGap rest then do
        goTo c.next
        pure (Token.tag none "!")
      else do
        let word := rest.takeWhile fun ch => !(ch = ' ' || isBreak ch)
        if word.contains '!' then
          let h ← handle
          pure (Token.tag (some h) (← address))
        else
          goTo c.next
          pure (Token.tag (some "!") (← address))
  if atSpace (← get).cursor.rest then return result else refuse "a space after a tag"

/-- Reads the name of an anchor or an alias; the place is on its mark. -/
def anchorName : Lexing String := do
  let (name, after) := (← get).cursor.next.span isNameChar
  let ends := match after.rest with
    | [] => true
    | ch :: _ => isGap ch || "?:,]\x7d%@`".contains ch
  if name.isEmpty || !ends then refuse "a name"
  else
    goTo after
    return String.ofList name

/-- Reads a decimal number. -/
def number : Lexing Nat := do
  let (digits, after) := (← get).cursor.span Char.isDigit
  if digits.isEmpty then refuse "a digit"
  if digits.length > Number.digitLimit then throw (.tooManyDigits digits.length)
  goTo after
  return Number.readDigits digits

/-- Moves past spaces. -/
def skipSpaces : Lexing Unit := modify fun l => { l with cursor := l.cursor.skipWhile (· = ' ') }

/-- Requires a space or the end of the line. -/
def requireSpace : Lexing Unit := do
  if atSpace (← get).cursor.rest then pure () else refuse "a space"

/-- Reads a directive line; the place is on the percent sign. -/
def directive : Lexing Directive := do
  let (name, after) := (← get).cursor.next.span isNameChar
  if name.isEmpty then refuse "a directive name"
  goTo after
  requireSpace
  let d ← match String.ofList name with
    | "YAML" => do
      skipSpaces
      let major ← number
      let c := (← get).cursor
      if c.rest.head? = some '.' then
        goTo c.next
        let _ ← number
        requireSpace
        pure (Directive.version major)
      else refuse "a point"
    | "TAG" => do
      skipSpaces
      let h ← handle
      if (← get).cursor.rest.head? = some ' ' then
        skipSpaces
        let start ← address
        requireSpace
        pure (Directive.tagHandle h start)
      else refuse "a space"
    | _ => do
      goTo ((← get).cursor.skipWhile (!isBreak ·))
      pure .other
  goTo (← (← get).cursor.endLine)
  return d

/-! ## Tokens -/

/-- Moves to the next token, past spaces, comments and line breaks.  Outside
brackets a new line may start a key. -/
def skipGaps : (fuel : Nat) → Lexing Unit
  | 0 => pure ()
  | fuel + 1 => do
    let l ← get
    let c := l.cursor.skipWhile (· = ' ')
    let c := if c.rest.head? = some '#' then c.skipWhile (!isBreak ·) else c
    let (mark, after) := c.lineBreak
    if mark.isEmpty then goTo c
    else
      set { l with cursor := after, keyAllowed := l.keyAllowed || l.level = 0 }
      skipGaps fuel

/-- A token of some characters that ends all blocks. -/
def outermost (t : Token) (width : Nat) : Lexing Unit := do
  closeBlocks (-1)
  forgetHere
  allowKey false
  goTo ((← get).cursor.skip width)
  emit t

/-- An opening bracket. -/
def openFlow (t : Token) : Lexing Unit := do
  remember
  modify fun l =>
    { l with level := l.level + 1, keyAllowed := true, cursor := l.cursor.next, tokens := l.tokens.push t }

/-- A closing bracket; one must be open. -/
def closeFlow (t : Token) : Lexing Unit := do
  forgetHere
  if (← get).level = 0 then refuse "an opening bracket before a closing one"
  modify fun l =>
    { l with level := l.level - 1, keyAllowed := false, cursor := l.cursor.next, tokens := l.tokens.push t }

/-- A comma between brackets. -/
def comma : Lexing Unit := do
  allowKey true
  forgetHere
  goTo (← get).cursor.next
  emit .comma

/-- Outside brackets, opens a block here if this is further right; a key must
be allowed. -/
def openHere (t : Token) : Lexing Unit := do
  let l ← get
  if l.level = 0 then
    if l.keyAllowed then openBlock l.cursor.column t l.tokens.size
    else refuse "the start of a line"

/-- A dash before an item. -/
def dash : Lexing Unit := do
  openHere .sequenceStart
  allowKey true
  forgetHere
  goTo (← get).cursor.next
  emit .dash

/-- A question mark before a key. -/
def explicitKey : Lexing Unit := do
  openHere .mappingStart
  allowKey ((← get).level = 0)
  forgetHere
  goTo (← get).cursor.next
  emit .key

/-- A colon before a value.  If a key may have started at this level, it did. -/
def value : Lexing Unit := do
  let l ← get
  match l.possible.find? fun k => k.level = l.level with
  | some k =>
    set { l with
      possible := l.possible.filter fun j => j.level ≠ l.level
      tokens := l.tokens.insertIdxIfInBounds k.position .key }
    if l.level = 0 then openBlock k.column .mappingStart k.position
    allowKey false
  | none =>
    openHere .mappingStart
    allowKey (l.level = 0)
    forgetHere
  goTo (← get).cursor.next
  emit .value

/-- A token that may be a key or stand before one. -/
def keyLike (read : Lexing Token) : Lexing Unit := do
  remember
  allowKey false
  emit (← read)

/-- A scalar in quotes. -/
def quoted (double : Bool) : Lexing Token := do
  let (text, after) ← quotedScalar double (← get).cursor
  goTo after
  return .scalar text false

/-- A plain scalar; a key may start behind one that ended its line. -/
def plain : Lexing Token := do
  let l ← get
  let (text, broken, after) := plainScalar (l.level ≠ 0) (l.indent + 1) l.cursor
  set { l with cursor := after, keyAllowed := broken }
  return .scalar text true

/-- A scalar in an indented block. -/
def block (folded : Bool) : Lexing Unit := do
  allowKey true
  forgetHere
  let l ← get
  let (text, after) ← blockScalar folded l.indent l.cursor
  goTo after
  emit (.scalar text false)

/-- Whether a plain scalar may start with these characters. -/
def startsPlain (inFlow : Bool) : List Char → Bool
  | [] => false
  | ch :: rest =>
    !(isGap ch || "-?:,[]\x7b\x7d#&*!|>'\"%@`".contains ch) ||
      (!atGap rest && (ch = '-' || (!inFlow && (ch = '?' || ch = ':'))))

/-- Cuts off one token; the result says whether it was the last one. -/
def step : Lexing Bool := do
  skipGaps ((← get).cursor.rest.length + 1)
  forgetStale
  closeBlocks (← get).cursor.column
  let l ← get
  let inFlow := l.level ≠ 0
  let first := l.cursor.column = 0
  match l.cursor.rest with
  | [] =>
    closeBlocks (-1)
    forgetHere
    emit .streamEnd
    return true
  | ch :: rest =>
    if ch = '%' && first then
      closeBlocks (-1)
      forgetHere
      allowKey false
      emit (.directive (← directive))
    else if ch = '-' && first && atMarker l.cursor.rest then outermost .documentStart 3
    else if ch = '.' && first && atMarker l.cursor.rest then outermost .documentEnd 3
    else if ch = '[' then openFlow .openBracket
    else if ch = '\x7b' then openFlow .openBrace
    else if ch = ']' then closeFlow .closeBracket
    else if ch = '\x7d' then closeFlow .closeBrace
    else if ch = ',' then comma
    else if ch = '-' && atGap rest then dash
    else if ch = '?' && (inFlow || atGap rest) then explicitKey
    else if ch = ':' && (inFlow || atGap rest) then value
    else if ch = '*' then keyLike (Token.alias <$> anchorName)
    else if ch = '&' then keyLike (Token.anchor <$> anchorName)
    else if ch = '!' then keyLike tagToken
    else if ch = '|' && !inFlow then block false
    else if ch = '>' && !inFlow then block true
    else if ch = '\'' then keyLike (quoted false)
    else if ch = '"' then keyLike (quoted true)
    else if startsPlain inFlow l.cursor.rest then keyLike plain
    else refuse "a character that can start a token"
    return false

/-- Cuts off tokens up to the end of the text. -/
def steps : (fuel : Nat) → Lexing Unit
  | 0 => refuse "the end of the text"
  | fuel + 1 => do
    let done ← step
    if done then pure () else steps fuel

end Lexing

/-- The start of cutting a text; a byte order mark before it is skipped. -/
def Lexer.start (s : String) : Lexer :=
  let c := Cursor.start s
  { cursor := if c.rest.head? = some '\uFEFF' then c.next else c
    level := 0, tokens := #[], indent := -1, outer := [], keyAllowed := true, possible := [] }

/-- The tokens of a text. -/
def tokens (s : String) : Except Fault (List Token) :=
  match s.toList.find? fun c => !isAllowed c with
  | some c => .error (.unprintable c)
  | none => do
    let (_, l) ← (Lexing.steps (s.length + 1)).run (Lexer.start s)
    return l.tokens.toList

end UssdFlows.Yaml
