import UssdFlows.Document.Display
import UssdFlows.Number.Reading

/-!
# Reading the fields of a document

A document is read field by field, and all that is wrong with it is collected:
every problem carries the path to the part it concerns.  A reader returns
either a value or the list of problems (`Checked`); joining two readers joins
their problems in order (`Checked.seq_bad`).

The scalar readers are lenient in fixed ways: whole numbers may be given as
text, as truth values or as reals without a fraction, reals and truth values
likewise; texts must be texts, or octets that encode one.
-/

namespace UssdFlows

/-- One step on the way to a part of a document. -/
inductive PathPart where
  | name (s : String)
  | index (n : Int)
  deriving DecidableEq, Repr

/-- What is wrong with a part of a document. -/
inductive Cause where
  | missing
  | notText
  /-- A text whose characters cannot be made out. -/
  | notUnicode
  | notWhole
  | fractional
  | notFinite
  | tooLarge
  | unreadableWhole
  | notReal
  | unreadableReal
  | notTruth
  | unreadableTruth
  | notMember
  | belowBound
  | notAboveBound
  | notRecord
  | notAttributes
  | notMapping
  | notSequence
  | notList
  | notMoment
  | unreadableMoment
  | tagMissing
  | tagUnknown
  | notJson
  /-- The part could not be examined at all. -/
  | raised (message : String)
  /-- A rule of the field itself is broken. -/
  | refused (message : String)
  deriving DecidableEq, Repr

/-- The name of a cause in reports. -/
def Cause.tag : Cause → String
  | missing => "missing"
  | notText => "string_type"
  | notUnicode => "string_unicode"
  | notWhole => "int_type"
  | fractional => "int_from_float"
  | notFinite => "finite_number"
  | tooLarge => "int_parsing_size"
  | unreadableWhole => "int_parsing"
  | notReal => "float_type"
  | unreadableReal => "float_parsing"
  | notTruth => "bool_type"
  | unreadableTruth => "bool_parsing"
  | notMember => "enum"
  | belowBound => "greater_than_equal"
  | notAboveBound => "greater_than"
  | notRecord => "model_type"
  | notAttributes => "model_attributes_type"
  | notMapping => "dict_type"
  | notSequence => "tuple_type"
  | notList => "list_type"
  | notMoment => "datetime_type"
  | unreadableMoment => "datetime_from_date_parsing"
  | tagMissing => "union_tag_not_found"
  | tagUnknown => "union_tag_invalid"
  | notJson => "json_invalid"
  | raised message => message
  | refused _ => "value_error"

/-- Something wrong with the part of a document that a path leads to. -/
structure Problem where
  path : List PathPart
  cause : Cause
  deriving DecidableEq, Repr

/-- Whether a problem is a part that could not be examined. -/
def Problem.isRaised (p : Problem) : Bool := p.cause matches .raised _

/-- A step on the way to a part as a document. -/
def PathPart.document : PathPart → Value
  | name s => .text s
  | index n => .int n

/-- A problem as a document: the way to the part, the name of the cause, and
the message of a broken rule. -/
def Problem.document (p : Problem) : Value :=
  .object ([("loc", .list (p.path.map PathPart.document)), ("type", .text p.cause.tag)] ++
    match p.cause with
    | .refused message => [("msg", .text message)]
    | _ => [])

/-- What a reader makes of a part of a document. -/
inductive Checked (α : Type) where
  | ok (a : α)
  | bad (problems : List Problem)
  deriving DecidableEq, Repr

namespace Checked

variable {α β : Type}

/-- Applies a function to a value that was read. -/
def map (f : α → β) : Checked α → Checked β
  | ok a => ok (f a)
  | bad ps => bad ps

/-- Applies a function that was read to a value that was read; the problems of
both are joined. -/
def seq : Checked (α → β) → Checked α → Checked β
  | ok f, ok a => ok (f a)
  | ok _, bad ps => bad ps
  | bad ps, ok _ => bad ps
  | bad ps, bad qs => bad (ps ++ qs)

instance : Applicative Checked where
  pure := ok
  map := map
  seq f x := seq f (x ())

/-- Goes on with a value that was read. -/
def andThen (x : Checked α) (f : α → Checked β) : Checked β :=
  match x with
  | ok a => f a
  | bad ps => bad ps

/-- A part with one problem. -/
def fail (c : Cause) : Checked α := bad [⟨[], c⟩]

/-- Puts a step in front of the paths of all problems. -/
def inside (p : PathPart) : Checked α → Checked α
  | ok a => ok a
  | bad ps => bad (ps.map fun q => { q with path := p :: q.path })

/-- Reads the items of a list, each under its index. -/
def items (read : Value → Checked α) : (index : Nat) → List Value → Checked (List α)
  | _, [] => ok []
  | i, v :: rest => (List.cons <$> inside (.index i) (read v)) <*> items read (i + 1) rest

/-- Problems of both sides are joined in order. -/
theorem seq_bad (ps qs : List Problem) :
    ((bad ps : Checked (α → β)) <*> (bad qs : Checked α)) = bad (ps ++ qs) := rfl

/-- A joint reading succeeds only if both sides do. -/
theorem seq_eq_ok_iff {f : Checked (α → β)} {x : Checked α} {b : β} :
    (f <*> x) = ok b ↔ ∃ g a, f = ok g ∧ x = ok a ∧ g a = b := by
  cases f <;> cases x <;> simp [Seq.seq, seq]

end Checked

/-! ## Names of fields -/

/-- A name of several words in one word: each word after the first starts with
a capital letter. -/
def camelCase (s : String) : String :=
  let rec go : List Char → List Char
    | [] => []
    | '_' :: c :: rest => c.toUpper :: go rest
    | c :: rest => c :: go rest
  String.ofList (go s.toList)

/-- How the fields of a record are spelled. -/
structure Naming where
  /-- The spellings under which a field is looked up, the first one found
  being used. -/
  spellings : String → List String
  /-- The spelling in the path of a problem. -/
  shown : String → String

namespace Naming

/-- Fields of flow definitions: one word or words joined by underscores. -/
def either : Naming := ⟨fun s => [camelCase s, s], camelCase⟩

/-- Fields of sessions, settings and requests: words joined by underscores. -/
def plain : Naming := ⟨fun s => [s], id⟩

variable {α : Type}

/-- The value of a field, if the record has it. -/
def value? (n : Naming) (members : List (Value × Value)) (field : String) : Option Value :=
  (n.spellings field).findSome? (Value.member? members)

/-- Reads a field that must be there. -/
def required (n : Naming) (members : List (Value × Value)) (field : String)
    (read : Value → Checked α) : Checked α :=
  .inside (.name (n.shown field)) <| match n.value? members field with
    | some v => read v
    | none => .fail .missing

/-- Reads a field that has a value of its own if it is not there. -/
def optional (n : Naming) (members : List (Value × Value)) (field : String) (absent : α)
    (read : Value → Checked α) : Checked α :=
  match n.value? members field with
  | some v => .inside (.name (n.shown field)) (read v)
  | none => .ok absent

end Naming

/-! ## Scalars -/

namespace Value

variable {α : Type}

/-- The text that some octets encode. -/
def decoded? (octets : List Nat) : Option String :=
  String.fromUTF8? ⟨(octets.map UInt8.ofNat).toArray⟩

/-- Reads a text, which may be encoded in octets. -/
def readText : Value → Checked String
  | text s => .ok s
  | unpaired _ => .fail .notUnicode
  | bytes octets =>
    match decoded? octets with
    | some s => .ok s
    | none => .fail .notUnicode
  | _ => .fail .notText

/-- Reads a value or null. -/
def readNullable (read : Value → Checked α) : Value → Checked (Option α)
  | null => .ok none
  | v => some <$> read v

/-- Reads a real without a fraction as a whole number. -/
def wholeOfReal (x : Binary64) : Checked Int :=
  if !x.isFinite then .fail .notFinite
  else match x.toInt? with
    | none => .fail .fractional
    | some n => if n.natAbs < Nat.pow 2 63 then .ok n else .fail .tooLarge

/-- Reads the numeral of a whole number. -/
def wholeOfText (s : String) : Checked Int :=
  match Number.readWhole? s with
  | some n => if s.length > Number.digitLimit then .fail .tooLarge else .ok n
  | none => .fail .unreadableWhole

/-- Reads a whole number. -/
def readWhole : Value → Checked Int
  | bool b => .ok b.toNat
  | int n => .ok n
  | real x => wholeOfReal x
  | text s => wholeOfText s
  | unpaired _ => .fail .notUnicode
  | bytes octets => ((decoded? octets).map wholeOfText).getD (.fail .unreadableWhole)
  | _ => .fail .notWhole

/-- Reads the numeral of a real number. -/
def realOfText (s : String) : Checked Binary64 :=
  match Number.readReal? s with
  | some x => .ok x
  | none => .fail .unreadableReal

/-- Reads a real number. -/
def readReal : Value → Checked Binary64
  | bool b => .ok (.ofInt b.toNat)
  | int n => if (Binary64.ofInt n).isFinite then .ok (.ofInt n) else .fail .notReal
  | real x => .ok x
  | text s => realOfText s
  | unpaired _ => .fail .notUnicode
  | bytes octets => ((decoded? octets).map realOfText).getD (.fail .unreadableReal)
  | _ => .fail .notReal

/-- The words for truth. -/
def trueWords : List String := ["1", "true", "t", "yes", "y", "on"]

/-- The words for falsehood. -/
def falseWords : List String := ["0", "false", "f", "no", "n", "off"]

/-- Reads a truth value from a whole number. -/
def truthOfInt (n : Int) : Checked Bool :=
  if n = 0 then .ok false else if n = 1 then .ok true else .fail .unreadableTruth

/-- Reads a word for truth or falsehood, in any case. -/
def truthOfText (s : String) : Checked Bool :=
  let word := s.toLower
  if trueWords.contains word then .ok true
  else if falseWords.contains word then .ok false
  else .fail .unreadableTruth

/-- Reads a truth value. -/
def readTruth : Value → Checked Bool
  | bool b => .ok b
  | int n => if n.natAbs < Nat.pow 2 63 then truthOfInt n else .fail .notTruth
  | real x =>
    match wholeOfReal x with
    | .ok n => truthOfInt n
    | .bad _ => .fail .notTruth
  | text s => truthOfText s
  | unpaired _ => .fail .notUnicode
  | bytes octets => ((decoded? octets).map truthOfText).getD (.fail .unreadableTruth)
  | _ => .fail .notTruth

/-- Reads one of the words of a closed list. -/
def readMember (ofText? : String → Option α) : Value → Checked α
  | text s => match ofText? s with
    | some a => .ok a
    | none => .fail .notMember
  | _ => .fail .notMember

/-- Goes on with the members of a record. -/
def readRecord (other : Cause) (read : List (Value × Value) → Checked α) : Value → Checked α
  | record members => read members
  | _ => .fail other

/-- The step that leads to the member with the given name. -/
def pathPart : Value → PathPart
  | text s => .name s
  | int n => .index n
  | bool b => .index b.toNat
  | other => .name other.term

end Value

/-- A whole number that is at least a bound. -/
def Checked.atLeast (bound : Int) (x : Checked Int) : Checked { n : Int // bound ≤ n } :=
  x.andThen fun n => if h : bound ≤ n then .ok ⟨n, h⟩ else .fail .belowBound

/-- A whole number above a bound. -/
def Checked.above (bound : Int) (x : Checked Int) : Checked { n : Int // bound < n } :=
  x.andThen fun n => if h : bound < n then .ok ⟨n, h⟩ else .fail .notAboveBound

/-- A real number above zero. -/
def Checked.aboveZero (x : Checked Binary64) : Checked Binary64 :=
  x.andThen fun r => if Binary64.zero.less r then .ok r else .fail .notAboveBound

example : camelCase "start_node_id" = "startNodeId" := by decide +kernel

end UssdFlows
