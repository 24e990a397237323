import UssdFlows.Number.Decimal
import UssdFlows.Number.Radix
import UssdFlows.Pattern.Expr
import UssdFlows.Text.Blank
import UssdFlows.Text.Digit
import UssdFlows.Text.Word

/-!
# Reading patterns

The notation of input patterns: literals and escapes, character sets, groups
(plain, named, not capturing, atomic, conditional), back references, looks
ahead and back, greedy, lazy and possessive repetitions, and options at the
start of the pattern or of a group.

A text is refused as a pattern for one of the reasons in `Fault`.  Characters
cannot be given by their names.
-/

namespace UssdFlows.Pattern

/-- Why a text is not a pattern. -/
inductive Fault where
  | badEscape
  | unterminatedSet
  | badRange
  | nothingToRepeat
  | multipleRepeat
  | repeatBounds
  | repetitionTooLarge
  /-- A bound of a repetition has too many digits. -/
  | tooManyDigits (count : Nat)
  | unbalancedParenthesis
  | unterminatedGroup
  | unknownExtension
  | badGroupName
  | duplicateGroupName
  | unknownGroup
  | openGroup
  | badOptions
  | widthNotFixed
  | emptyPattern
  /-- A repetition where none is allowed. -/
  | unsupported
  /-- The reader gave up for want of something that the text does not decide,
  such as room for nested groups. -/
  | raised (message : String)
  deriving DecidableEq, Repr

/-- The options that may be switched on for a pattern or a part of it. -/
structure Options where
  ignoreCase : Bool := false
  ascii : Bool := false
  multiline : Bool := false
  dotAll : Bool := false
  verbose : Bool := false
  /-- No part may be repeated. -/
  template : Bool := false
  /-- The whole alphabet is asked for. -/
  unicode : Bool := false
  /-- Both alphabets were asked for, one after the other. -/
  mixed : Bool := false
  deriving DecidableEq, Repr

/-- How leaves compare characters under the options. -/
def Options.fold (o : Options) : Fold := ⟨o.ignoreCase, o.ascii⟩

/-- A character of the pattern, alone or after a backslash. -/
inductive Token where
  | plain (c : Char)
  | escaped (c : Char)
  /-- A backslash that ends the pattern. -/
  | dangling
  deriving DecidableEq, Repr

/-- Splits a pattern into tokens. -/
def tokens : List Char → List Token
  | [] => []
  | '\\' :: c :: rest => .escaped c :: tokens rest
  | ['\\'] => [.dangling]
  | c :: rest => .plain c :: tokens rest

/-- What is known at some place of a pattern. -/
structure Progress where
  /-- The tokens that are left. -/
  rest : List Token
  /-- The number of groups opened so far. -/
  groups : Nat
  /-- The names of groups. -/
  names : List (String × Nat)
  /-- The widths of the groups that are closed. -/
  widths : List (Nat × Nat × Option Nat)
  /-- The groups opened before the outermost look back, inside one. -/
  lookBack : Option Nat
  /-- The groups named by number in conditions. -/
  conditions : List Nat
  /-- The options of the whole pattern. -/
  options : Options
  /-- Whether something may be repeated. -/
  repeats : Bool
  /-- Whether the width of something looked back at is not fixed, or too large. -/
  unfixed : Bool

/-- The width of a closed group. -/
def Progress.widthOf (p : Progress) (i : Nat) : Nat × Option Nat := (p.widths.lookup i).getD (0, none)

/-- Whether a group is closed. -/
def Progress.isClosed (p : Progress) (i : Nat) : Bool := (p.widths.lookup i).isSome

/-- Reads one part of a pattern. -/
abbrev Read (α : Type) := StateT Progress (Except Fault) α

/-- The next token, if any. -/
def peek? : Read (Option Token) := do return (← get).rest.head?

/-- Moves on to the given rest of the tokens.  A backslash must not end the pattern,
which is met as soon as it comes next. -/
def moveTo (rest : List Token) : Read Unit := do
  let p ← get
  let seen := p.rest.take (p.rest.length + 1 - rest.length)
  if seen.contains .dangling then throw .badEscape
  set { p with rest := rest }

/-- Takes the next token. -/
def take? : Read (Option Token) := do
  let p ← get
  moveTo p.rest.tail
  return p.rest.head?

/-- Takes the next token if it is the given plain character. -/
def accept (c : Char) : Read Bool := do
  if (← peek?) = some (.plain c) then
    discard take?
    return true
  return false

/-- Takes plain characters of a class, at most `most` of them. -/
def takeWhile (most : Nat) (ok : Char → Bool) : Read (List Char) := do
  let p ← get
  let isOk : Token → Bool := fun t => match t with
    | .plain c => ok c
    | _ => false
  let taken := (p.rest.take most).takeWhile isOk
  moveTo (p.rest.drop taken.length)
  return taken.filterMap fun t => match t with
    | .plain c => some c
    | _ => none

/-- The characters of a token. -/
def Token.chars : Token → List Char
  | plain c => [c]
  | escaped c => ['\\', c]
  | dangling => ['\\']

/-- Takes a name up to a closing character, which is taken too. -/
def takeName (close : Char) : Read String := do
  let p ← get
  let name := p.rest.takeWhile (· != .plain close)
  let after := p.rest.drop name.length
  if name.isEmpty || after.isEmpty then throw .badGroupName
  moveTo (after.drop 1)
  return String.ofList (name.flatMap Token.chars)

/-- Whether a text may name a group. -/
def isIdentifier (s : String) : Bool :=
  match s.toList with
  | [] => false
  | c :: rest => Text.isWord c && !Text.isDigit c && rest.all Text.isWord

/-! ## Escapes -/

/-- The code point of an escape for a control character. -/
def controlEscape? : Char → Option Nat
  | 'a' => some 7
  | 'f' => some 12
  | 'n' => some 10
  | 'r' => some 13
  | 't' => some 9
  | 'v' => some 11
  | '\\' => some 92
  | _ => none

/-- The class of an escape. -/
def categoryEscape? : Char → Option SetItem
  | 'd' => some (.category .digit false)
  | 'D' => some (.category .digit true)
  | 's' => some (.category .blank false)
  | 'S' => some (.category .blank true)
  | 'w' => some (.category .word false)
  | 'W' => some (.category .word true)
  | _ => none

/-- Whether a character is an octal digit. -/
def isOctal (c : Char) : Bool := '0' ≤ c && c ≤ '7'

/-- The number written by octal digits. -/
def octal (cs : List Char) : Nat := cs.foldl (fun n c => 8 * n + Number.digitOf c) 0

/-- Reads the given count of hexadecimal digits. -/
def takeHex (count : Nat) : Read Nat := do
  let cs ← takeWhile count fun c => (Number.hexDigit? c).isSome
  match Number.readRadix? 16 cs with
  | some n => if cs.length = count && n < 0x110000 then return n else throw .badEscape
  | none => throw .badEscape

/-- The code point of an escape that is neither a class nor a reference. -/
def codeEscape (c : Char) : Read Nat :=
  match controlEscape? c with
  | some n => return n
  | none =>
    if c = 'x' then takeHex 2
    else if c = 'u' then takeHex 4
    else if c = 'U' then takeHex 8
    else if c.isAlphanum then throw .badEscape
    else return c.toNat

/-- A character set that holds one item. -/
def single (item : SetItem) (o : Options) : Expr :=
  match item with
  | .code n => .literal n o.fold
  | other => .set false [other] o.fold

/-- Checks that a back reference may stand here. -/
def checkReference (i : Nat) : Read Unit := do
  let p ← get
  unless p.isClosed i do throw .openGroup
  match p.lookBack with
  | some n => if i > n then throw .openGroup
  | none => return

/-- Reads an escape outside a character set. -/
def escape (c : Char) (o : Options) : Read Expr := do
  match categoryEscape? c with
  | some item => return single item o
  | none =>
    if c = 'A' then return .position .textStart
    else if c = 'Z' then return .position .textEnd
    else if c = 'b' then return .position (.wordBoundary false o.ascii)
    else if c = 'B' then return .position (.wordBoundary true o.ascii)
    else if c = '0' then
      let cs ← takeWhile 2 isOctal
      return .literal (octal cs) o.fold
    else if c.isDigit then
      let second ← takeWhile 1 Char.isDigit
      let third ← if isOctal c && !second.isEmpty && second.all isOctal then takeWhile 1 isOctal
        else pure []
      if third.isEmpty then
        let i := Number.readDigits (c :: second)
        if i > (← get).groups then throw .unknownGroup
        checkReference i
        return .backreference i o.fold
      else
        let n := octal (c :: second ++ third)
        if n > 0xFF then throw .badEscape
        return .literal n o.fold
    else return .literal (← codeEscape c) o.fold

/-- Reads an escape inside a character set. -/
def setEscape (c : Char) : Read SetItem := do
  match categoryEscape? c with
  | some item => return item
  | none =>
    if c = 'b' then return .code 8
    else if isOctal c then
      let cs ← takeWhile 2 isOctal
      let n := octal (c :: cs)
      if n > 0xFF then throw .badEscape
      return .code n
    else return .code (← codeEscape c)

/-! ## Character sets -/

/-- The item of a token inside a set. -/
def setItem : Token → Read SetItem
  | .plain c => return .code c.toNat
  | .escaped c => setEscape c
  | .dangling => throw .badEscape

/-- Reads the items of a set up to its closing bracket; `done` holds those
read, last first.  A bracket that stands first is an item. -/
def setItems : (fuel : Nat) → (done : List SetItem) → Read (List SetItem)
  | 0, _ => throw .unterminatedSet
  | fuel + 1, done => do
    match ← take? with
    | none => throw .unterminatedSet
    | some t =>
      if t = .plain ']' && !done.isEmpty then return done.reverse
      let first ← setItem t
      if ← accept '-' then
        match ← take? with
        | none => throw .unterminatedSet
        | some (.plain ']') => return (.code '-'.toNat :: first :: done).reverse
        | some u =>
          match first, ← setItem u with
          | .code lo, .code hi =>
            if hi < lo then throw .badRange
            setItems fuel (.range lo hi :: done)
          | _, _ => throw .badRange
      else setItems fuel (first :: done)

/-! ## Options -/

/-- Switches an option on by its letter. -/
def switchOn (o : Options) : Char → Option Options
  | 'i' => some { o with ignoreCase := true }
  | 'm' => some { o with multiline := true }
  | 's' => some { o with dotAll := true }
  | 'x' => some { o with verbose := true }
  | 'a' => some { o with ascii := true, mixed := o.mixed || o.unicode }
  | 'u' => some { o with ascii := false, unicode := true, mixed := o.mixed || o.ascii }
  | 't' => some { o with template := true }
  | _ => none

/-- Switches an option off by its letter. -/
def switchOff (o : Options) : Char → Option Options
  | 'i' => some { o with ignoreCase := false }
  | 'm' => some { o with multiline := false }
  | 's' => some { o with dotAll := false }
  | 'x' => some { o with verbose := false }
  | _ => none

/-- Applies the letters of an option group; a letter that is unknown, both
switched on and off, or both alphabets at once are refused. -/
def applyOptions (o : Options) (on off : List Char) : Except Fault Options := do
  if on.contains 'a' && on.contains 'u' then throw .badOptions
  if on.any off.contains then throw .badOptions
  let o ← on.foldlM (fun o c => (switchOn o c).elim (throw .badOptions) pure) o
  off.foldlM (fun o c => (switchOff o c).elim (throw .badOptions) pure) o

/-! ## Repetitions -/

/-- One part of a sequence, with what decides whether it may be repeated. -/
structure Piece where
  expr : Expr
  isPosition : Bool := false
  isRepeat : Bool := false

/-- The greatest bound of a repetition, and one more. -/
def repeatLimit : Nat := 4294967295

/-- The bound that some digits write. -/
def boundOf (digits : List Char) : Except Fault Nat := do
  if digits.length > Number.digitLimit then throw (.tooManyDigits digits.length)
  let n := Number.readDigits digits
  if n ≥ repeatLimit then throw .repetitionTooLarge
  return n

/-- Reads the bounds of a repetition after its opening brace.  A brace that
opens no bounds is a literal, and nothing is taken. -/
def bounds? : Read (Option (Nat × Option Nat)) := do
  let saved ← get
  if (← peek?) = some (.plain '\x7d') then return none
  let low ← takeWhile saved.rest.length Char.isDigit
  let hasComma ← accept ','
  let high ← if hasComma then takeWhile saved.rest.length Char.isDigit else pure low
  if ← accept '\x7d' then
    let least ← boundOf low
    if high.isEmpty then return some (least, none)
    let most ← boundOf high
    if most < least then throw .repeatBounds
    return some (least, some most)
  else
    set saved
    return none

/-- Repeats the last part of a sequence, given in reverse. -/
def repeatLast (done : List Piece) (least : Nat) (most : Option Nat) : Read (List Piece) := do
  match done with
  | [] => throw .nothingToRepeat
  | last :: before =>
    if last.isPosition then throw .nothingToRepeat
    if last.isRepeat then throw .multipleRepeat
    modify fun p => { p with repeats := true }
    let repeated (greed : Greed) := ⟨.many greed least most last.expr, false, true⟩ :: before
    if ← accept '?' then return repeated .lazy
    if ← accept '+' then return repeated .possessive
    return repeated .greedy

/-! ## Groups -/

/-- Opens a capturing group. -/
def openGroup (name : Option String) : Read Nat := do
  let p ← get
  let i := p.groups + 1
  let names ← match name with
    | none => pure p.names
    | some s => if (p.names.lookup s).isSome then throw .duplicateGroupName else pure ((s, i) :: p.names)
  set { p with groups := i, names := names }
  return i

/-- Closes a capturing group. -/
def closeGroup (i : Nat) (e : Expr) : Read Unit :=
  modify fun p => { p with widths := (i, e.width p.widthOf) :: p.widths }

/-- Takes the parenthesis that closes a group. -/
def closing : Read Unit := do
  unless ← accept ')' do throw .unterminatedGroup

/-- The number that a text writes as a group number. -/
def groupNumber? (s : String) : Option Nat :=
  let cs := Text.stripBy Text.isBlank s.toList
  let digits := match cs with
    | '+' :: rest => rest
    | _ => cs
  if digits.isEmpty then none
  else digits.foldl (fun n c => n.bind fun n => (Text.digitValue? c).map (10 * n + ·)) (some 0)

/-- Skips a comment group. -/
def skipComment : Read Unit := do
  let p ← get
  let after := p.rest.dropWhile (· != .plain ')')
  if after.isEmpty then throw .unterminatedGroup
  moveTo (after.drop 1)

/-- What a group marks by the characters after its question mark. -/
inductive Opening where
  | capture (name : Option String)
  | plain (options : Options)
  | atomic
  | look (behind negated : Bool)
  | condition (index : Nat)
  | reference (index : Nat)
  | comment
  /-- Options for the rest of the pattern. -/
  | global (options : Options)

/-- Takes the letters of the options that a group switches off: those after its
leading minus sign, or those after a minus sign in the middle. -/
def takeOff (first letters : List Char) : Read (List Char) := do
  if first = ['-'] then
    if letters.isEmpty then throw .badOptions
    return letters
  if ← accept '-' then
    let p ← get
    let off ← takeWhile p.rest.length fun c => c.isAlpha
    if off.isEmpty then throw .badOptions
    return off
  return []

/-- Reads the options of a group. -/
def optionGroup (o : Options) (first : List Char) : Read Opening := do
  let letters ← takeWhile (← get).rest.length fun c => c.isAlpha
  let on := if first = ['-'] then [] else first ++ letters
  let off ← takeOff first letters
  if ← accept ':' then
    if on.contains 't' then throw .badOptions
    return .plain (← applyOptions o on off)
  else if off.isEmpty && first != ['-'] then
    unless ← accept ')' do throw .badOptions
    return .global (← applyOptions (← get).options on [])
  else throw .badOptions

/-- Reads the characters that say what a group is, after its parenthesis. -/
def opening (o : Options) : Read Opening := do
  unless ← accept '?' do return .capture none
  match ← take? with
  | some (.plain 'P') =>
    if ← accept '<' then
      let name ← takeName '>'
      unless isIdentifier name do throw .badGroupName
      return .capture (some name)
    else if ← accept '=' then
      let name ← takeName ')'
      unless isIdentifier name do throw .badGroupName
      match (← get).names.lookup name with
      | none => throw .unknownGroup
      | some i =>
        checkReference i
        return .reference i
    else throw .unknownExtension
  | some (.plain ':') => return .plain o
  | some (.plain '#') => return .comment
  | some (.plain '=') => return .look false false
  | some (.plain '!') => return .look false true
  | some (.plain '<') =>
    if ← accept '=' then return .look true false
    else if ← accept '!' then return .look true true
    else throw .unknownExtension
  | some (.plain '>') => return .atomic
  | some (.plain '(') =>
    let name ← takeName ')'
    let i ← if isIdentifier name then
        match (← get).names.lookup name with
        | none => throw .unknownGroup
        | some i => pure i
      else match groupNumber? name with
        | some (i + 1) =>
          modify fun p => { p with conditions := (i + 1) :: p.conditions }
          pure (i + 1)
        | _ => throw .badGroupName
    match (← get).lookBack with
    | some _ => checkReference i
    | none => pure ()
    return .condition i
  | some (.plain c) =>
    if c = '-' || (switchOn o c).isSome then optionGroup o [c] else throw .unknownExtension
  | _ => throw .unknownExtension

/-! ## Expressions -/

/-- Skips a comment that runs to the end of its line. -/
def skipLine : Read Unit := do
  moveTo (((← get).rest.dropWhile (· != .plain '\n')).drop 1)

/-- Whether a character does not count in a verbose pattern. -/
def isPadding (c : Char) : Bool :=
  c = ' ' || c = '\t' || c = '\n' || c = '\r' || c = '\x0b' || c = '\x0c'

/-- The position of a plain anchor. -/
def anchor (c : Char) (o : Options) : Position :=
  if c = '^' then if o.multiline then .lineStart else .textStart
  else if o.multiline then .lineEnd else .lastLineEnd

mutual

/-- Reads alternatives up to the end of the pattern or of the group. -/
def alternatives : (fuel : Nat) → (outermost : Bool) → Options → Read Expr
  | 0, _, _ => throw .unterminatedGroup
  | fuel + 1, outermost, o => do
    let first ← sequence fuel outermost [] o
    if ← accept '|' then
      let p ← get
      let o := if outermost then p.options else o
      return .either first (← alternatives fuel false o)
    else return first

/-- Reads one alternative; `done` holds the parts read, last first.  Options
for the whole pattern may be given only at its very start. -/
def sequence : (fuel : Nat) → (start : Bool) → (done : List Piece) → Options → Read Expr
  | 0, _, _, _ => throw .unterminatedGroup
  | fuel + 1, start, done, o => do
    let finish : Read Expr := return .ofList (done.reverse.map Piece.expr)
    match ← peek? with
    | none => finish
    | some (.plain '|') => finish
    | some (.plain ')') => finish
    | some .dangling => throw .badEscape
    | some (.escaped c) =>
      discard take?
      let e ← escape c o
      let isPosition := match e with
        | .position _ => true
        | _ => false
      sequence fuel start (⟨e, isPosition, false⟩ :: done) o
    | some (.plain c) =>
      discard take?
      if o.verbose && isPadding c then sequence fuel start done o
      else if o.verbose && c = '#' then
        skipLine
        sequence fuel start done o
      else if c = '[' then
        let negated ← accept '^'
        let items ← setItems fuel []
        sequence fuel start (⟨.set negated items o.fold, false, false⟩ :: done) o
      else if c = '*' then
        let done ← repeatLast done 0 none
        sequence fuel start done o
      else if c = '+' then
        let done ← repeatLast done 1 none
        sequence fuel start done o
      else if c = '?' then
        let done ← repeatLast done 0 (some 1)
        sequence fuel start done o
      else if c = '\x7b' then
        match ← bounds? with
        | none => sequence fuel start (⟨.literal c.toNat o.fold, false, false⟩ :: done) o
        | some (least, most) =>
          let done ← repeatLast done least most
          sequence fuel start done o
      else if c = '.' then
        sequence fuel start (⟨.any o.dotAll, false, false⟩ :: done) o
      else if c = '^' || c = '$' then
        sequence fuel start (⟨.position (anchor c o), true, false⟩ :: done) o
      else if c = '(' then
        match ← opening o with
        | .comment =>
          skipComment
          sequence fuel start done o
        | .global options =>
          if !start || !done.isEmpty then throw .badOptions
          modify fun p => { p with options := options }
          sequence fuel start done options
        | .reference i => sequence fuel start (⟨.backreference i o.fold, false, false⟩ :: done) o
        | .capture name =>
          let i ← openGroup name
          let e ← alternatives fuel false o
          closing
          closeGroup i e
          sequence fuel start (⟨.group i e, false, false⟩ :: done) o
        | .plain inner =>
          let e ← alternatives fuel false inner
          closing
          sequence fuel start (⟨e, false, false⟩ :: done) o
        | .atomic =>
          let e ← alternatives fuel false o
          closing
          sequence fuel start (⟨.atomic e, false, false⟩ :: done) o
        | .look behind negated =>
          let outer := (← get).lookBack
          if behind && outer.isNone then modify fun p => { p with lookBack := some p.groups }
          let e ← alternatives fuel false o
          if behind then modify fun p => { p with lookBack := outer }
          closing
          if behind then
            let p ← get
            let (low, high) := e.width p.widthOf
            if high != some low || low > repeatLimit then modify fun p => { p with unfixed := true }
            sequence fuel start (⟨.look (some low) negated e, false, false⟩ :: done) o
          else sequence fuel start (⟨.look none negated e, false, false⟩ :: done) o
        | .condition i =>
          let yes ← sequence fuel false [] o
          let two ← accept '|'
          let no ← if two then sequence fuel false [] o else pure .empty
          closing
          sequence fuel start (⟨.ifGroup i yes no, false, false⟩ :: done) o
      else sequence fuel start (⟨.literal c.toNat o.fold, false, false⟩ :: done) o

end

/-- Reads a text as a pattern.  The alphabets that are asked for, what is looked
back at, and whether anything may be repeated at all are examined when the whole
text has been read. -/
def parse (source : String) : Except Fault Expr := do
  let ts := tokens source.toList
  if ts.head? = some .dangling then throw .badEscape
  let (e, p) ← (alternatives (2 * ts.length + 2) true {}).run
    ⟨ts, 0, [], [], none, [], {}, false, false⟩
  unless p.rest.isEmpty do throw .unbalancedParenthesis
  if p.conditions.any (· > p.groups) then throw .unknownGroup
  if p.options.mixed then throw .badOptions
  if p.unfixed then throw .widthNotFixed
  if p.options.template && p.repeats then throw .unsupported
  return e

end UssdFlows.Pattern
