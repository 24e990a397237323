import UssdFlows.Document.Value
import UssdFlows.Number.Shortest
import UssdFlows.Text.Printable

/-!
# Values shown as text

A value that stands where a flow expects a text is shown as text: numbers by
their shortest numeral, truth values as `True` and `False`, the absence of a
value as `None`, lists in square brackets and records in curly ones.  A text
inside a list or record stands in quotes, with escapes for what has no shape
of its own.  A value cannot be shown if there is a whole number in it with too
many digits.
-/

namespace UssdFlows.Value

open Number

/-- A hexadecimal numeral in small letters, filled up with zeros. -/
def hexText (width n : Nat) : List Char :=
  let digits := Nat.toDigits 16 n
  List.replicate (width - digits.length) '0' ++ digits

/-- A character inside quotes. -/
def quotedChar (quote c : Char) : List Char :=
  if c = quote || c = '\\' then ['\\', c]
  else if c = '\n' then ['\\', 'n']
  else if c = '\r' then ['\\', 'r']
  else if c = '\t' then ['\\', 't']
  else if Text.isPrintable c then [c]
  else if c.toNat < 0x100 then '\\' :: 'x' :: hexText 2 c.toNat
  else if c.toNat < 0x10000 then '\\' :: 'u' :: hexText 4 c.toNat
  else '\\' :: 'U' :: hexText 8 c.toNat

/-- A text in quotes: single ones, or double ones if it holds a single quote
and no double one. -/
def quoted (s : String) : String :=
  let cs := s.toList
  let quote := if cs.contains '\'' && !cs.contains '"' then '"' else '\''
  String.ofList (quote :: cs.flatMap (quotedChar quote) ++ [quote])

/-- The character with a code inside quotes. -/
def quotedCode (quote : Char) (n : Nat) : List Char :=
  if n.isValidChar then quotedChar quote (.ofNat n) else '\\' :: 'u' :: hexText 4 n

/-- A row of codes in quotes. -/
def quotedCodes (codes : List Nat) : String :=
  let quote := if codes.contains 0x27 && !codes.contains 0x22 then '"' else '\''
  String.ofList (quote :: codes.flatMap (quotedCode quote) ++ [quote])

/-- An octet inside quotes. -/
def quotedOctet (quote : Char) (n : Nat) : List Char :=
  let c := Char.ofNat n
  if n < 0x80 && (Text.isPrintable c || c = '\n' || c = '\r' || c = '\t') then quotedChar quote c
  else '\\' :: 'x' :: hexText 2 n

/-- A row of octets in quotes. -/
def quotedOctets (ns : List Nat) : String :=
  let quote := if ns.contains 0x27 && !ns.contains 0x22 then '"' else '\''
  String.ofList ('b' :: quote :: ns.flatMap (quotedOctet quote) ++ [quote])

/-- A truth value as text. -/
def boolText (b : Bool) : String := if b then "True" else "False"

/-- Hours and minutes of an offset, with its sign. -/
def offsetText (minutes : Int) : String :=
  let n := minutes.natAbs
  (if minutes < 0 then "-" else "+") ++ paddedText 2 (n / 60) ++ ":" ++ paddedText 2 (n % 60)

/-- A date as year, month and day. -/
def dateText (m : Moment) : String :=
  paddedText 4 m.year ++ "-" ++ paddedText 2 m.month ++ "-" ++ paddedText 2 m.day

/-- A moment as text. -/
def momentText (m : Moment) : String :=
  match m.time with
  | none => dateText m
  | some (h, mi, s, u) =>
    dateText m ++ " " ++ paddedText 2 h ++ ":" ++ paddedText 2 mi ++ ":" ++ paddedText 2 s ++
      (if u = 0 then "" else "." ++ paddedText 6 u) ++ (m.offset.map offsetText).getD ""

/-- A duration of some minutes as a term of days and seconds. -/
def durationTerm (minutes : Int) : String :=
  let seconds := minutes * 60
  let days := seconds.fdiv 86400
  let rest := seconds.fmod 86400
  let dayPart := if days = 0 then [] else ["days=" ++ intText days]
  let restPart := if rest = 0 then [] else ["seconds=" ++ intText rest]
  "datetime.timedelta(" ++ ", ".intercalate (dayPart ++ restPart) ++ ")"

/-- The zone of a moment inside a list or record. -/
def zoneTerm (minutes : Int) : String :=
  if minutes = 0 then "datetime.timezone.utc"
  else "datetime.timezone(" ++ durationTerm minutes ++ ")"

/-- A moment inside a list or record: its parts as the arguments of a term. -/
def momentTerm (m : Moment) : String :=
  let date := natText m.year ++ ", " ++ natText m.month ++ ", " ++ natText m.day
  match m.time with
  | none => "datetime.date(" ++ date ++ ")"
  | some (h, mi, s, u) =>
    let tail := if u != 0 then ", " ++ natText s ++ ", " ++ natText u
      else if s != 0 then ", " ++ natText s
      else ""
    let zone := (m.offset.map fun o => ", tzinfo=" ++ zoneTerm o).getD ""
    "datetime.datetime(" ++ date ++ ", " ++ natText h ++ ", " ++ natText mi ++ tail ++ zone ++ ")"

mutual

/-- A value as it is shown inside a list or record. -/
def term : Value → String
  | null => "None"
  | bool b => boolText b
  | int n => intText n
  | real x => x.text
  | text s => quoted s
  | unpaired codes => quotedCodes codes
  | moment m => momentTerm m
  | bytes ns => quotedOctets ns
  | list items => "[" ++ ", ".intercalate (terms items) ++ "]"
  | record members => "\x7b" ++ ", ".intercalate (memberTerms members) ++ "\x7d"

/-- The items of a list as they are shown. -/
def terms : List Value → List String
  | [] => []
  | v :: rest => term v :: terms rest

/-- The members of a record as they are shown. -/
def memberTerms : List (Value × Value) → List String
  | [] => []
  | (n, v) :: rest => (term n ++ ": " ++ term v) :: memberTerms rest

end

/-- The character with a code; half of a surrogate pair is replaced. -/
def codeChar (n : Nat) : Char := if n.isValidChar then .ofNat n else '\uFFFD'

/-- A value shown as text. -/
def display : Value → String
  | text s => s
  | unpaired codes => String.ofList (codes.map codeChar)
  | moment m => momentText m
  | other => term other

mutual

/-- Whether a value can be shown: its whole numbers do not have too many digits. -/
def isShowable : Value → Bool
  | int n => Number.isShowable n
  | list items => areShowable items
  | record members => membersShowable members
  | _ => true

/-- Whether all items of a list can be shown. -/
def areShowable : List Value → Bool
  | [] => true
  | v :: rest => isShowable v && areShowable rest

/-- Whether all members of a record can be shown. -/
def membersShowable : List (Value × Value) → Bool
  | [] => true
  | (n, v) :: rest => isShowable n && isShowable v && membersShowable rest

end

/-- A text is shown as it is. -/
@[simp] theorem display_text (s : String) : display (text s) = s := rfl

example : display (list [int 1, text "x", null, bool true]) = "[1, 'x', None, True]" := by
  decide +kernel

example : quoted "it's" = "\"it's\"" := by decide +kernel

end UssdFlows.Value
