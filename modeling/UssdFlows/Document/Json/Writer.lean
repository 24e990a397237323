import UssdFlows.Document.Display

/-!
# Writing JSON text

Values are written without spaces, members in the order of the record.
Quotes and backslashes are escaped, and so is every character that is not
printable ASCII: the text has one line and survives any encoding.  Numbers that are not finite are written as the words
`NaN`, `Infinity` and `-Infinity`, and a member name that is not a text is
written as the text it is shown as.
-/

namespace UssdFlows.Json

/-- The escape for a unit of sixteen bits. -/
def escapedUnit (n : Nat) : List Char := '\\' :: 'u' :: Value.hexText 4 n

/-- A character inside a JSON text.  One beyond sixteen bits is escaped as a
pair of units. -/
def escapedChar (c : Char) : List Char :=
  let n := c.toNat
  if c = '"' || c = '\\' then ['\\', c]
  else if c = '\n' then ['\\', 'n']
  else if c = '\r' then ['\\', 'r']
  else if c = '\t' then ['\\', 't']
  else if 0x20 ≤ n && n < 0x7F then [c]
  else if n < 0x10000 then escapedUnit n
  else
    escapedUnit (0xD800 + (n - 0x10000) / 0x400) ++ escapedUnit (0xDC00 + (n - 0x10000) % 0x400)

/-- A text in double quotes. -/
def writeText (s : String) : String :=
  String.ofList ('"' :: s.toList.flatMap escapedChar ++ ['"'])

/-- A row of codes in double quotes. -/
def writeCodes (codes : List Nat) : String :=
  String.ofList ('"' :: codes.flatMap (fun n =>
    if n.isValidChar then escapedChar (.ofNat n) else escapedUnit n) ++ ['"'])

/-- A number as JSON. -/
def writeReal : Binary64 → String
  | .notANumber => "NaN"
  | .infinite a => if a then "-Infinity" else "Infinity"
  | x => x.text

mutual

/-- A value as JSON text. -/
def write : Value → String
  | .null => "null"
  | .bool b => if b then "true" else "false"
  | .int n => Number.intText n
  | .real x => writeReal x
  | .text s => writeText s
  | .unpaired codes => writeCodes codes
  | .moment m => writeText (Value.momentText m)
  | .bytes ns => writeText (Value.quotedOctets ns)
  | .list items => "[" ++ ",".intercalate (writeItems items) ++ "]"
  | .record members => "\x7b" ++ ",".intercalate (writeMembers members) ++ "\x7d"

/-- The items of a list as JSON texts. -/
def writeItems : List Value → List String
  | [] => []
  | v :: rest => write v :: writeItems rest

/-- The members of a record as JSON texts. -/
def writeMembers : List (Value × Value) → List String
  | [] => []
  | (n, v) :: rest => (writeText n.display ++ ":" ++ write v) :: writeMembers rest

end

example : write (.object [("a", .list [.int 1, .null]), ("b", .text "x\n")]) =
    "\x7b\"a\":[1,null],\"b\":\"x\\n\"\x7d" := by decide +kernel

end UssdFlows.Json
