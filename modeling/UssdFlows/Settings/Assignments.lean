import UssdFlows.Text.Blank

/-!
# Files of assignments

A file of assignments has one `NAME=value` a line.  A line may start with the
word `export`; a value may stand in single or double quotes, with a few
escapes, and then run over several lines; after a blank, a hash sign starts a
comment.  A line that is none of this is skipped.

`$` followed by a name in braces stands for the value of that name, or for a
text given after `:-` if the name has none.
-/

namespace UssdFlows.Assignments

open Text

/-- A name and its value; a name may stand without one. -/
abbrev Assignment := String × Option String

/-- Whether a character ends a line. -/
def isLineEnd (c : Char) : Bool := c = '\r' || c = '\n'

/-- Whether a character is blank and does not end a line. -/
def isInner (c : Char) : Bool := isBlank c && !isLineEnd c

/-- Drops the word `export` and the blanks after it. -/
def dropExport (cs : List Char) : List Char :=
  let word := "export".toList
  if word.isPrefixOf cs then
    let rest := cs.drop word.length
    if (rest.head?.map isInner).getD false then rest.dropWhile isInner else cs
  else cs

/-- Splits a list at the quote that closes it: the first one that no backslash
precedes, or else the last one.  `earlier` is the best split so far. -/
def splitQuote (quote : Char) (earlier : Option (List Char × List Char)) (read : List Char) :
    List Char → Option (List Char × List Char)
  | [] => earlier
  | c :: rest =>
    if c = quote then
      if read.head? = some '\\' then
        splitQuote quote (some (read.reverse, rest)) (c :: read) rest
      else some (read.reverse, rest)
    else splitQuote quote earlier (c :: read) rest

/-- The characters that may follow a backslash in double quotes, with what they mean. -/
def doubleEscapes : List (Char × Char) :=
  [('\\', '\\'), ('\'', '\''), ('"', '"'), ('a', '\x07'), ('b', '\x08'), ('f', '\x0c'),
    ('n', '\n'), ('r', '\r'), ('t', '\t'), ('v', '\x0b')]

/-- The characters that may follow a backslash in single quotes, with what they mean. -/
def singleEscapes : List (Char × Char) := [('\\', '\\'), ('\'', '\'')]

/-- Replaces escapes by what they mean. -/
def unescape (escapes : List (Char × Char)) : List Char → List Char
  | '\\' :: c :: rest =>
    match escapes.lookup c with
    | some d => d :: unescape escapes rest
    | none => '\\' :: unescape escapes (c :: rest)
  | c :: rest => c :: unescape escapes rest
  | [] => []
termination_by cs => cs.length

/-- Drops a hash sign behind a blank and all after it. -/
def dropComment : List Char → List Char
  | [] => []
  | c :: rest =>
    if isBlank c && (rest.dropWhile isBlank).head? = some '#' then [] else c :: dropComment rest

/-- A list without the blanks at its end. -/
def trimEnd (cs : List Char) : List Char := (cs.reverse.dropWhile isBlank).reverse

/-- A list as it is up to the end of the line, and the rest. -/
def restOfLine (cs : List Char) : List Char × List Char := cs.span fun c => !isLineEnd c

/-- Reads the value of an assignment. -/
def readValue? (cs : List Char) : Option (List Char × List Char) :=
  match cs with
  | '\'' :: rest => (splitQuote '\'' none [] rest).map fun r => (unescape singleEscapes r.1, r.2)
  | '"' :: rest => (splitQuote '"' none [] rest).map fun r => (unescape doubleEscapes r.1, r.2)
  | _ =>
    let (line, rest) := restOfLine cs
    some (trimEnd (dropComment line), rest)

/-- Reads the name of an assignment; a comment has none. -/
def readName? (cs : List Char) : Option (Option (List Char) × List Char) :=
  match cs with
  | '#' :: _ => some (none, cs)
  | '\'' :: rest =>
    let (name, after) := rest.span (· ≠ '\'')
    if name.isEmpty || after.isEmpty then none else some (some name, after.drop 1)
  | _ =>
    let (name, after) := cs.span fun c => c ≠ '=' && c ≠ '#' && !isBlank c
    if name.isEmpty then none else some (some name, after)

/-- Drops a comment and the end of the line; there must be nothing else. -/
def endLine? (cs : List Char) : Option (List Char) :=
  let rest := cs.dropWhile isInner
  let rest := if rest.head? = some '#' then (restOfLine rest).2 else rest
  match rest with
  | [] => some []
  | '\r' :: '\n' :: after => some after
  | c :: after => if isLineEnd c then some after else none

/-- What the reading of a line comes to: an assignment if it holds one, and
where to go on. -/
structure Line where
  assignment : Option Assignment
  rest : List Char

/-- Skips a line that cannot be read, from the place where reading stopped. -/
def skipLine (cs : List Char) : Line := ⟨none, ((restOfLine cs).2).drop 1⟩

/-- Reads the line at the front of a list. -/
def readLine (cs : List Char) : Line :=
  let cs := dropExport cs
  match readName? cs with
  | none => skipLine cs
  | some (name, rest) =>
    let rest := rest.dropWhile isInner
    let finish (value : Option (List Char)) (rest : List Char) : Line :=
      match endLine? rest with
      | none => skipLine rest
      | some after => ⟨name.map fun n => (String.ofList n, value.map String.ofList), after⟩
    match rest with
    | '=' :: more =>
      let more := more.dropWhile isInner
      match readValue? more with
      | none => skipLine more
      | some (value, after) => finish (some value) after
    | _ => finish none rest

/-- Reads the lines of a list, at most `fuel` of them. -/
def readLines : (fuel : Nat) → List Char → List Assignment
  | 0, _ => []
  | fuel + 1, cs =>
    match cs.dropWhile isBlank with
    | [] => []
    | c :: rest =>
      let line := readLine (c :: rest)
      line.assignment.toList ++ readLines fuel line.rest

/-- The assignments of a file as they are written; every line takes a character
of the text at least. -/
def read (text : String) : List Assignment := readLines (text.length + 1) text.toList

/-! ## Names in values -/

/-- The name and the text for its absence at the front of a list, behind the
opening brace. -/
def readReference? (cs : List Char) : Option (String × String × List Char) :=
  let (name, rest) := cs.span fun c => c ≠ '\x7d' && c ≠ ':'
  match rest with
  | '\x7d' :: after => some (String.ofList name, "", after)
  | ':' :: '-' :: more =>
    match more.span (· ≠ '\x7d') with
    | (spare, _ :: after) => some (String.ofList name, String.ofList spare, after)
    | _ => none
  | _ => none

/-- Replaces references by values; `fuel` bounds the number of characters. -/
def expand (value? : String → Option String) : (fuel : Nat) → List Char → List Char
  | 0, cs => cs
  | _, [] => []
  | fuel + 1, c :: rest =>
    match c, rest with
    | '$', '\x7b' :: more =>
      match readReference? more with
      | some (name, spare, after) =>
        ((value? name).getD spare).toList ++ expand value? fuel after
      | none => c :: expand value? fuel rest
    | _, _ => c :: expand value? fuel rest

/-- Resolves the references in values, one assignment after another: a name
stands for its latest value in the file, or for the one given from outside. -/
def resolve (outside : String → Option String) (done : List Assignment) :
    List Assignment → List Assignment
  | [] => done
  | (name, value) :: rest =>
    let known (n : String) : Option String :=
      match done.reverse.lookup n with
      | some v => v.getD "" |> some
      | none => outside n
    let value := value.map fun v => String.ofList (expand known (v.length + 1) v.toList)
    resolve outside (done ++ [(name, value)]) rest

example : read "A=1\nexport B='x y' # c\nC = \"a\\nb\"\nbad line\nD" =
    [("A", some "1"), ("B", some "x y"), ("C", some "a\nb"), ("D", none)] := by
  decide +kernel

end UssdFlows.Assignments
