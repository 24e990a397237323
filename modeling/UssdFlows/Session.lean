import UssdFlows.Data.KeyedList
import UssdFlows.Document.Fields
import UssdFlows.Time.Instant

/-!
# Sessions

A session is one walk of a caller through a flow.  It is pinned to a version
of its flow, rests at a node, holds the variables captured so far and the
inputs received so far, and has a status.  Everything but `active` is final.

Receiving an input appends it to the history (`record`) and renews the time at
which the session expires (`renew?`).
-/

namespace UssdFlows

/-- Where a session stands in its life. -/
inductive SessionStatus where
  | active
  | completed
  | terminated
  | expired
  deriving DecidableEq, Repr

/-- The word for a status. -/
def SessionStatus.text : SessionStatus → String
  | active => "active"
  | completed => "completed"
  | terminated => "terminated"
  | expired => "expired"

/-- All statuses. -/
def SessionStatus.all : List SessionStatus := [active, completed, terminated, expired]

/-- The status that a word names. -/
def SessionStatus.ofText? (s : String) : Option SessionStatus :=
  SessionStatus.all.find? fun t => t.text == s

/-- An input as it was received. -/
structure InputRecord where
  input : String
  /-- The number of the input within its session. -/
  step : Int
  timestamp : Instant
  deriving DecidableEq, Repr

/-- The walk of a caller through a flow. -/
structure Session where
  id : String
  flowId : String
  flowVersion : Int
  phoneNumber : String
  ussdCode : String
  status : SessionStatus
  /-- The node that awaits input. -/
  currentNode : Option String
  /-- The variables with their values. -/
  bindings : Dict String
  /-- The inputs received, oldest first. -/
  history : List InputRecord
  stepCount : Int
  startedAt : Instant
  lastActivityAt : Instant
  expiresAt : Instant
  completedAt : Option Instant
  terminationReason : Option String
  metadata : List (Value × Value)

namespace Session

/-- Whether the session accepts input. -/
def isActive (s : Session) : Bool := s.status == .active

/-- Whether the session has been idle for too long at some time. -/
def isPastExpiry (s : Session) (now : Instant) : Bool := s.expiresAt.before now

/-- Whether the session accepts input at some time: it is active and has not
been idle for too long. -/
def isLive (s : Session) (now : Instant) : Bool := s.isActive && !s.isPastExpiry now

/-- The record of the next input. -/
def nextRecord (s : Session) (input : String) (now : Instant) : InputRecord :=
  ⟨input, s.stepCount + 1, now⟩

/-- Appends an input to the history. -/
def record (s : Session) (input : String) (now : Instant) : Session :=
  { s with
    stepCount := s.stepCount + 1
    history := s.history ++ [s.nextRecord input now]
    lastActivityAt := now }

/-- Gives the session so many seconds from now, if that time can be written. -/
def renew? (s : Session) (now : Instant) (seconds : Int) : Option Session :=
  (now.afterSeconds? seconds).map fun t => { s with expiresAt := t }

/-- The seconds from the start to the given end, or else to the completion, or
else to the present. -/
def duration (s : Session) (stop : Option Instant) (now : Instant) : Binary64 :=
  Instant.secondsOf (((stop.or s.completedAt).getD now).since s.startedAt)

/-- Stores captured variables. -/
def capture (s : Session) (captured : Dict String) : Session :=
  { s with bindings := s.bindings.putAll captured.items }

/-! ## Reading and writing -/

/-- Reads an instant. -/
def readInstant : Value → Checked Instant
  | .text s => match Instant.ofText? s with
    | some t => .ok t
    | none => .fail .unreadableMoment
  | _ => .fail .notMoment

/-- Reads an input record; without a timestamp it is of now. -/
def readRecord (now : Instant) : Value → Checked InputRecord :=
  Value.readRecord .notRecord fun members =>
    InputRecord.mk
      <$> Naming.plain.required members "input" Value.readText
      <*> Naming.plain.required members "step_index" Value.readWhole
      <*> Naming.plain.optional members "timestamp" now readInstant

/-- Reads the variables of a session, which are texts already. -/
def readVariables : Value → Checked (Dict String)
  | .record entries =>
    KeyedList.ofList <$> entries.foldr (fun e rest =>
      List.cons <$> .inside e.1.pathPart (Prod.mk e.1.display <$> e.2.readText) <*> rest) (.ok [])
  | _ => .fail .notMapping

/-- Reads the inputs received. -/
def readHistory (now : Instant) : Value → Checked (List InputRecord)
  | .list items => Checked.items (readRecord now) 0 items
  | _ => .fail .notList

/-- Reads the members of a record as they are. -/
def readMetadata : Value → Checked (List (Value × Value))
  | .record members => .ok members
  | _ => .fail .notMapping

/-- The seconds after which an idle session expires unless something else is said. -/
def standardTimeout : Int := 1800

/-- Reads a session; one without id takes the spare one, one without times
starts now. -/
def ofDocument (spareId : String) (now : Instant) : Value → Checked Session :=
  Value.readRecord .notRecord fun members =>
    let required := fun {α} field (read : Value → Checked α) =>
      Naming.plain.required members field read
    let optional := fun {α} field (absent : α) (read : Value → Checked α) =>
      Naming.plain.optional members field absent read
    Session.mk
      <$> optional "session_id" spareId Value.readText
      <*> required "flow_id" Value.readText
      <*> optional "flow_version" 1 Value.readWhole
      <*> required "phone_number" Value.readText
      <*> required "ussd_code" Value.readText
      <*> optional "status" .active (Value.readMember SessionStatus.ofText?)
      <*> optional "current_node_id" none (Value.readNullable Value.readText)
      <*> optional "variables" .empty readVariables
      <*> optional "input_history" [] (readHistory now)
      <*> optional "step_count" 0 (fun v => Subtype.val <$> Checked.atLeast 0 v.readWhole)
      <*> optional "started_at" now readInstant
      <*> optional "last_activity_at" now readInstant
      <*> optional "expires_at" ((now.afterSeconds? standardTimeout).getD now) readInstant
      <*> optional "completed_at" none (Value.readNullable readInstant)
      <*> optional "termination_reason" none (Value.readNullable Value.readText)
      <*> optional "metadata" [] readMetadata

end Session

/-- An input record as a document. -/
def InputRecord.document (zone : String) (r : InputRecord) : Value :=
  .object [("input", .text r.input), ("step_index", .int r.step),
    ("timestamp", .text (r.timestamp.text zone))]

/-- A session as the members of a document; `zone` is how universal time is
marked in it. -/
def Session.members (zone : String) (s : Session) : List (String × Value) :=
  let written (t : Instant) : Value := .text (t.text zone)
  [("session_id", .text s.id), ("flow_id", .text s.flowId), ("flow_version", .int s.flowVersion),
    ("phone_number", .text s.phoneNumber), ("ussd_code", .text s.ussdCode),
    ("status", .text s.status.text), ("current_node_id", .ofOption s.currentNode),
    ("variables", .object (s.bindings.items.map fun e => (e.1, .text e.2))),
    ("step_count", .int s.stepCount),
    ("input_history", .list (s.history.map (InputRecord.document zone))),
    ("started_at", written s.startedAt), ("last_activity_at", written s.lastActivityAt),
    ("expires_at", written s.expiresAt), ("completed_at", (s.completedAt.map written).getD .null),
    ("termination_reason", .ofOption s.terminationReason)]

end UssdFlows
