import UssdFlows.Session
import UssdFlows.Text.Digit

/-!
# Events

An event tells that something has happened to a session.  Besides the session
it names the node concerned, the network of the caller, and details that
depend on its kind.
-/

namespace UssdFlows

/-- A mobile network. -/
inductive Network where
  | mtn
  | telecel
  | airteltigo
  | unknown
  deriving DecidableEq, Repr

namespace Network

/-- The word for a network. -/
def text : Network → String
  | mtn => "mtn"
  | telecel => "telecel"
  | airteltigo => "airteltigo"
  | unknown => "unknown"

/-- How the numbers of each network begin, after the country code or a zero. -/
def codes : List (String × Network) := [("24", mtn), ("20", telecel), ("27", airteltigo)]

/-- The network of a phone number in any format: all but its digits is ignored. -/
def ofPhone (phone : String) : Network :=
  let digits := phone.toList.filter Text.isDigit
  let begins (code : String) : Bool :=
    ("233" ++ code).toList.isPrefixOf digits || ("0" ++ code).toList.isPrefixOf digits
  ((codes.find? fun c => begins c.1).map Prod.snd).getD unknown

end Network

/-- The kinds of event. -/
inductive EventType where
  | sessionStarted
  | nodeVisited
  | inputReceived
  | errorOccurred
  | actionInitiated
  | sessionCompleted
  | sessionTerminated
  | sessionExpired
  deriving DecidableEq, Repr

/-- The word for a kind of event. -/
def EventType.text : EventType → String
  | sessionStarted => "session_started"
  | nodeVisited => "node_visited"
  | inputReceived => "input_received"
  | errorOccurred => "error_occurred"
  | actionInitiated => "action_initiated"
  | sessionCompleted => "session_completed"
  | sessionTerminated => "session_terminated"
  | sessionExpired => "session_expired"

/-- All kinds of event. -/
def EventType.all : List EventType :=
  [sessionStarted, nodeVisited, inputReceived, errorOccurred, actionInitiated, sessionCompleted,
    sessionTerminated, sessionExpired]

/-- The kind of event that a word names. -/
def EventType.ofText? (s : String) : Option EventType := EventType.all.find? fun t => t.text == s

/-- Something that has happened to a session. -/
structure Event where
  type : EventType
  sessionId : String
  flowId : String
  node : Option String
  phoneNumber : String
  network : Network
  timestamp : Instant
  /-- Details that depend on the kind of event. -/
  data : List (String × Value)

/-- An event of a session; without a node of its own it is about the node the
session is at. -/
def Event.ofSession (type : EventType) (s : Session) (node : Option String)
    (data : List (String × Value)) (now : Instant) : Event :=
  { type, sessionId := s.id, flowId := s.flowId, node := node.or s.currentNode
    phoneNumber := s.phoneNumber, network := .ofPhone s.phoneNumber, timestamp := now, data }

/-- An event as a document. -/
def Event.document (zone : String) (e : Event) : Value :=
  .object [("event_type", .text e.type.text), ("session_id", .text e.sessionId),
    ("flow_id", .text e.flowId), ("node_id", .ofOption e.node),
    ("phone_number", .text e.phoneNumber), ("telco", .text e.network.text),
    ("timestamp", .text (e.timestamp.text zone)), ("data", .object e.data)]

example : Network.ofPhone "+233 (20) 123-4567" = .telecel := by decide +kernel

end UssdFlows
