import UssdFlows.Document.Fields
import UssdFlows.Document.Libraries
import UssdFlows.Flow.Basic
import UssdFlows.Text.LetterCase

/-!
# Flow definitions

A flow is written as a document: a record with its id, name, version and start
node, a record of nodes under their ids, and a record of variables.  Every
field of several words may be spelled as one word (`startNodeId`) or with
underscores (`start_node_id`); where both are given the first spelling counts.

`Flow.ofDocument` reads a definition and collects all that is wrong with it;
`Flow.definition` writes one.  Patterns, and values that stand for texts, are
read by libraries; where one of these gives up, the reading does
(`Cause.raised`).
-/

namespace UssdFlows

variable [Libraries]

/-! ## Reading -/

/-- The wording for a repetition that is beyond all bounds. -/
def repetitionText : String := "the repetition number is too large"

/-- Reads any value as the text that it is shown as. -/
def Value.readShown (v : Value) : Checked String :=
  match Libraries.shown v with
  | .ok s => .ok s
  | .error .overlong => .fail (.refused Number.overlongText)
  | .error .notUnicode => .fail .notUnicode
  | .error (.raised message) => .fail (.raised message)

namespace MenuOption

/-- Reads the key of an option: any value shown as text, stripped, and not empty. -/
def readKey (v : Value) : Checked { s : String // Text.isTrimmed s = true } :=
  let empty := Checked.fail (.refused "Option key cannot be empty")
  if v matches .null then empty
  else v.readShown.andThen fun shown =>
    let s := Text.strip shown
    if h : Text.isTrimmed s = true then .ok ⟨s, h⟩ else empty

/-- Reads an option of a menu. -/
def ofValue : Value → Checked MenuOption :=
  Value.readRecord .notRecord fun members =>
    (fun key text target => ⟨key.val, text, target, key.property⟩)
      <$> Naming.either.required members "key" readKey
      <*> Naming.either.optional members "text" "" Value.readText
      <*> Naming.either.optional members "target_node_id" none (Value.readNullable Value.readText)

end MenuOption

/-- Reads a list of options. -/
def Value.readOptions : Value → Checked (List MenuOption)
  | list items => Checked.items MenuOption.ofValue 0 items
  | _ => .fail .notSequence

namespace InputSpec

/-- Reads the pattern of an input node; an empty text is no pattern. -/
def readPattern (v : Value) : Checked (Option Pattern) :=
  (v.readNullable Value.readText).andThen fun
    | none => .ok none
    | some s =>
      if s = "" then .ok none
      else match Libraries.pattern s with
        | .ok p => .ok (some p)
        | .error .repetitionTooLarge => .fail (.raised repetitionText)
        | .error (.raised message) => .fail (.raised message)
        | .error (.tooManyDigits count) => .fail (.refused (Number.digitLimitText count))
        | .error _ => .fail (.refused ("Invalid input pattern '" ++ s ++ "'"))

/-- Reads what an input node captures. -/
def ofValue : Value → Checked InputSpec :=
  Value.readRecord .notRecord fun members =>
    InputSpec.mk
      <$> Naming.either.optional members "variable_name" "input" Value.readText
      <*> Naming.either.optional members "required" true Value.readTruth
      <*> Naming.either.optional members "pattern" none readPattern

end InputSpec

/-- Reads the text that a condition compares with, or that a variable begins with: any
value shown as text, null being empty. -/
def Value.readComparand : Value → Checked String
  | null => .ok ""
  | v => v.readShown

/-- Reads the comparison of a conditional node. -/
def Condition.ofValue : Value → Checked Condition :=
  Value.readRecord .notRecord fun members =>
    Condition.mk
      <$> Naming.either.required members "variable" Value.readText
      <*> Naming.either.optional members "operator" .equals (Value.readMember Operator.ofText?)
      <*> Naming.either.optional members "value" "" Value.readComparand

namespace Amount

/-- Nothing to be paid. -/
def zero : Amount := ⟨Binary64.zero, by decide⟩

/-- Reads an amount. -/
def ofValue (v : Value) : Checked Amount :=
  v.readReal.andThen fun x =>
    if h : (x.less Binary64.zero || x == .notANumber) = false then .ok ⟨x, h⟩
    else .fail .belowBound

end Amount

/-- Reads the method of a call, in any case and with blanks around it. -/
def Method.ofValue (v : Value) : Checked Method :=
  v.readText.andThen fun s =>
    match Method.ofText? (Text.upper (Text.strip s)) with
    | some m => .ok m
    | none => .fail (.refused
        ("Method '" ++ s ++ "' not supported. Must be one of GET, POST, PUT, PATCH"))

/-- Reads the node that an edge leads to. -/
def Value.readTarget : Value → Checked (Option String) := Value.readNullable Value.readText

namespace Behaviour

/-- Reads the fields that belong to a kind of node. -/
def ofMembers (members : List (Value × Value)) : NodeKind → Checked Behaviour
  | .menu => menu <$> Naming.either.optional members "options" [] Value.readOptions
  | .input =>
    input
      <$> Naming.either.optional members "input_spec" .standard InputSpec.ofValue
      <*> target "next_node_id"
  | .conditional =>
    (fun c s f next => conditional c ⟨s, f⟩ next)
      <$> Naming.either.required members "condition" Condition.ofValue
      <*> target "success_node_id"
      <*> target "failure_node_id"
      <*> target "next_node_id"
  | .payment =>
    (fun s f amount currency => payment ⟨s, f⟩ amount currency)
      <$> target "success_node_id"
      <*> target "failure_node_id"
      <*> Naming.either.optional members "amount" .zero Amount.ofValue
      <*> Naming.either.optional members "currency" "GHS" Value.readText
  | .api =>
    (fun s f url method => api ⟨s, f⟩ url method)
      <$> target "success_node_id"
      <*> target "failure_node_id"
      <*> Naming.either.optional members "url" none Value.readTarget
      <*> Naming.either.optional members "method" .post Method.ofValue
  | .terminal => pure terminal
where
  /-- Reads a field that names a node. -/
  target (field : String) : Checked (Option String) :=
    Naming.either.optional members field none Value.readTarget

end Behaviour

namespace Node

/-- Reads a node from its members; `id` is the value that stands for its id. -/
def ofMembers (members : List (Value × Value)) (id : Option Value) : Checked Node :=
  match Value.member? members "kind" with
  | none => .fail .tagMissing
  | some tag =>
    match (match tag with | .text s => NodeKind.ofText? s | _ => none) with
    | none => .fail .tagUnknown
    | some kind =>
      let readId : Checked String := .inside (.name "id") <| match id with
        | some v => v.readText
        | none => .fail .missing
      .inside (.name kind.text) <|
        Node.mk
          <$> readId
          <*> Naming.either.optional members "text" "" Value.readText
          <*> Behaviour.ofMembers members kind

/-- Reads a node that stands on its own. -/
def ofValue : Value → Checked Node :=
  Value.readRecord .notAttributes fun members => ofMembers members (Value.member? members "id")

end Node

namespace Flow

/-- The declared id of a node that contradicts the name it stands under, with
that name. -/
def contradiction? (nodes : List (Value × Value)) : Option (Value × Value) :=
  nodes.findSome? fun (name, node) =>
    match node.get? "id" with
    | none => none
    | some .null => none
    | some declared => if Value.sameName declared name then none else some (name, declared)

/-- Reads a node under its name. -/
def readEntry (name node : Value) : Checked Node :=
  .inside name.pathPart <|
    (fun _ n => n) <$> .inside (.name "[key]") name.readText
      <*> Value.readRecord .notAttributes (fun members => Node.ofMembers members (some name)) node

/-- Reads the nodes of a flow. -/
def readNodes : Value → Checked (KeyedList Node.id)
  | .record entries =>
    KeyedList.ofList <$> entries.foldr (fun e rest => List.cons <$> readEntry e.1 e.2 <*> rest) (.ok [])
  | _ => .fail .notMapping

/-- Reads one of the variables that a session begins with. -/
def readVariable (name value : Value) : Checked (String × String) :=
  name.readShown.andThen fun n => value.readComparand.andThen fun v => .ok (n, v)

/-- Reads the variables that a session begins with: any values shown as text.  The first
that cannot be shown is reported alone. -/
def readVariables : Value → Checked (Dict String)
  | .record entries =>
    KeyedList.ofList <$> entries.foldr (fun e rest =>
      (readVariable e.1 e.2).andThen fun x => List.cons x <$> rest) (.ok [])
  | _ => .fail .notMapping

/-- Reads the fields of a flow. -/
def ofMembers (spareId : String) (members : List (Value × Value)) : Checked Flow :=
  (fun id name description version start nodes defaults =>
      ⟨id, name, description, version.val, start, nodes, defaults, version.property⟩)
    <$> Naming.either.optional members "id" spareId Value.readText
    <*> Naming.either.optional members "name" none (Value.readNullable Value.readText)
    <*> Naming.either.optional members "description" none (Value.readNullable Value.readText)
    <*> Naming.either.optional members "version" firstVersion
      (fun v => Checked.atLeast 1 v.readWhole)
    <*> Naming.either.required members "start_node_id" Value.readText
    <*> Naming.either.optional members "nodes" .empty readNodes
    <*> Naming.either.optional members "variables" .empty readVariables

/-- The members of a definition's nodes, if it has a record of nodes. -/
def nodeEntries (members : List (Value × Value)) : List (Value × Value) :=
  match Value.member? members "nodes" with
  | some (.record entries) => entries
  | _ => []

/-- Reads a value as the text that it is shown as in a message, where half a surrogate
pair does no harm. -/
def readQuoted (v : Value) : Checked String :=
  match v with
  | .unpaired _ => .ok v.display
  | v => v.readShown

/-- Reports that the declared id of a node contradicts the name it stands under. -/
def mismatch (name declared : Value) : Checked Flow :=
  (readQuoted name).andThen fun n => (readQuoted declared).andThen fun d =>
    .fail (.refused ("Node key '" ++ n ++ "' does not match its declared id '" ++ d ++ "'"))

/-- Reads a flow definition.  A definition without id takes the spare one.  A
node whose declared id contradicts the name it stands under is reported alone,
before the fields are read. -/
def ofDocument (spareId : String) : Value → Checked Flow :=
  Value.readRecord .notRecord fun members =>
    match contradiction? (nodeEntries members) with
    | some (name, declared) => mismatch name declared
    | none => ofMembers spareId members

/-- Whether reading a definition takes the spare id. -/
def takesSpareId : Value → Bool
  | .record members =>
    (contradiction? (nodeEntries members)).isNone && (Value.member? members "id").isNone
  | _ => false

end Flow

/-! ## Writing -/

namespace MenuOption

/-- An option as a document. -/
def document (o : MenuOption) : Value :=
  .object [("key", .text o.key), ("text", .text o.text), ("targetNodeId", .ofOption o.target)]

end MenuOption

/-- An input specification as a document. -/
def InputSpec.document (s : InputSpec) : Value :=
  .object [("variableName", .text s.variableName), ("required", .bool s.isRequired),
    ("pattern", .ofOption (s.pattern.map Pattern.source))]

/-- A condition as a document. -/
def Condition.document (c : Condition) : Value :=
  .object [("variable", .text c.variableName), ("operator", .text c.operator.text),
    ("value", .text c.value)]

/-- An amount as a document; an amount without bound has no form there. -/
def Amount.document (a : Amount) : Value := if a.value.isFinite then .real a.value else .null

/-- Two branches as members of a document. -/
def Branches.members (b : Branches) : List (String × Value) :=
  [("successNodeId", .ofOption b.success), ("failureNodeId", .ofOption b.failure)]

/-- The members of a node that belong to its behaviour. -/
def Behaviour.members : Behaviour → List (String × Value)
  | menu options => [("options", .list (options.map MenuOption.document))]
  | input spec next => [("inputSpec", spec.document), ("nextNodeId", .ofOption next)]
  | conditional c b next =>
    ("condition", c.document) :: b.members ++ [("nextNodeId", .ofOption next)]
  | payment b amount currency =>
    b.members ++ [("amount", amount.document), ("currency", .text currency)]
  | api b url method => b.members ++ [("url", .ofOption url), ("method", .text method.text)]
  | terminal => []

/-- A node as a document, without its id. -/
def Node.document (n : Node) : Value :=
  .object (("text", .text n.text) :: ("kind", .text n.kind.text) :: n.behaviour.members)

/-- A dictionary of texts as a document. -/
def KeyedList.textRecord (d : Dict String) : Value :=
  .object (d.items.map fun e => (e.1, .text e.2))

/-- The definition of a flow. -/
def Flow.definition (f : Flow) : Value :=
  .object [("id", .text f.id), ("name", .ofOption f.name),
    ("description", .ofOption f.description), ("version", .int f.version),
    ("startNodeId", .text f.startNode),
    ("nodes", .object (f.nodes.items.map fun n => (n.id, n.document))),
    ("variables", f.defaults.textRecord)]

end UssdFlows
