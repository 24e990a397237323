import UssdFlows.Document.Json.Reader
import UssdFlows.Document.Yaml.Reader
import UssdFlows.Pattern.Matcher

/-!
# Readers of other notations

A flow is not read from characters alone.  JSON texts, files in block notation
and patterns are read by libraries, and a value that stands for a text is shown
by its type.  `Libraries` says what comes of each of these.

They do their work as this development writes it down (`Libraries.standard`), or
they give up: how deep values and groups may be nested is up to the room that is
left when a library is called, which no text decides.  Three things more are left to
them: for which of several faults a file in block notation is refused, whether a
value may hold itself, and which names of characters a pattern may use.
-/

namespace UssdFlows

/-- Why a value cannot be shown as a text. -/
inductive Value.ShowFault where
  /-- A whole number has too many digits. -/
  | overlong
  /-- The text has half a surrogate pair that stands alone. -/
  | notUnicode
  /-- The value was given up on, such as one that is nested too deep. -/
  | raised (message : String)
  deriving DecidableEq, Repr

/-- Line ends of every kind as line feeds. -/
def unifyLineEnds : List Char → List Char
  | '\r' :: '\n' :: rest => '\n' :: unifyLineEnds rest
  | '\r' :: rest => '\n' :: unifyLineEnds rest
  | c :: rest => c :: unifyLineEnds rest
  | [] => []

/-- The text of a file, whose lines end in line feeds, if its octets are text. -/
def textOf? (octets : ByteArray) : Option String :=
  (String.fromUTF8? octets).map fun s => String.ofList (unifyLineEnds s.toList)

/-- The text that a value is shown as, whatever its depth. -/
def Value.asText (v : Value) : Except Value.ShowFault String :=
  match v with
  | unpaired _ => .error .notUnicode
  | v => if v.isShowable then .ok v.display else .error .overlong

/-- The value of a file in block notation, however long and deep. -/
def Yaml.readOctets (octets : ByteArray) : Except Yaml.Fault (Option Value) :=
  match textOf? octets with
  | some text => Yaml.read text
  | none => .error .undecodable

theorem Yaml.readOctets_of_text {octets : ByteArray} {text : String}
    (h : textOf? octets = some text) : readOctets octets = read text := by
  rw [readOctets, h]

/-- A text may give characters by their names, as a pattern. -/
def Pattern.HasNames (s : String) : Prop := ['\\', 'N'] <:+: s.toList

/-- What loading leaves to others.  Each reader does what is written down here or
gives up. -/
class Libraries where
  /-- The value of a JSON text. -/
  json : String → Except Json.Failure Value
  /-- The value of the only document in the octets of a file, if there is one. -/
  block : ByteArray → Except Yaml.Fault (Option Value)
  /-- The pattern that a text denotes. -/
  pattern : String → Except Pattern.Fault Pattern
  /-- The text that a value is shown as. -/
  shown : Value → Except Value.ShowFault String
  json_eq (text : String) : json text = Json.read text ∨
    ∃ failure why, json text = .error failure ∧ failure.fault = .raised why
  block_eq (octets : ByteArray) (text : String) (htext : textOf? octets = some text)
    (h : ∀ fault, Yaml.read text = .error fault → fault.isOpen = false) :
    block octets = Yaml.read text ∨ (∃ why, block octets = .error (.raised why)) ∨
      ∃ fault fault', Yaml.read text = .error fault ∧ block octets = .error fault' ∧
        Yaml.HasFault text fault'
  block_refuses (octets : ByteArray) (h : textOf? octets = none) :
    ∃ fault, block octets = .error fault
  pattern_eq (s : String) (h : ¬ Pattern.HasNames s) : pattern s = Pattern.ofText s ∨
    ∃ why, pattern s = .error (.raised why)
  shown_eq (v : Value) : shown v = v.asText ∨ ∃ why, shown v = .error (.raised why)

namespace Libraries

/-- The readers of this development, which have all the room they need. -/
instance standard : Libraries where
  json := Json.read
  block := Yaml.readOctets
  pattern := Pattern.ofText
  shown := Value.asText
  json_eq _ := .inl rfl
  block_eq _ _ htext _ := .inl (Yaml.readOctets_of_text htext)
  block_refuses octets h := ⟨.undecodable, by rw [Yaml.readOctets, h]⟩
  pattern_eq _ _ := .inl rfl
  shown_eq _ := .inl rfl

@[simp] theorem pattern_standard (s : String) : standard.pattern s = Pattern.ofText s := rfl

end Libraries

end UssdFlows
