import UssdFlows.Api.Endpoint
import UssdFlows.Api.Message
import UssdFlows.Engine.Operations

/-!
# Answers

For every endpoint, what a request must hold and what it makes the engine do.
A request is read first (`Endpoint.read`); only one that holds what it must
reaches the engine.  An error of the engine is answered by `Endpoint.refusal`,
and answers about a caller's sessions are counted with their status
(`Endpoint.serve`).
-/

namespace UssdFlows

/-- The version of the interface. -/
def interfaceVersion : String := "0.1.0"

/-- What stands around the engine. -/
structure Surroundings where
  /-- Whether the engine is there. -/
  isReady : Bool
  /-- Whether sessions are swept up in the background. -/
  isSweeping : Bool
  deriving DecidableEq, Repr

/-! ## What is shown -/

/-- A session that was started or resumed, with its screen. -/
def Session.opening (s : Session) (screen : String) : Value :=
  .object [("session_id", .text s.id), ("prompt", .text screen), ("status", .text s.status.text),
    ("node_id", .ofOption s.currentNode)]

/-- A session as it is shown to clients. -/
def Session.snapshot (s : Session) : Value := .object (s.members "Z")

/-- What a caller is shown after an input, member by member. -/
def Navigation.members (r : Navigation) : List (String × Value) :=
  [("session_id", .text r.sessionId), ("prompt", .text r.prompt),
    ("terminated", .bool r.isFinished), ("error", .ofOption r.error),
    ("status", .text r.status.text), ("node_id", .ofOption r.node)]

/-- Sessions in numbers, as a document. -/
def SessionStats.document (s : SessionStats) : Value :=
  .object ([("total_sessions", .int s.total), ("average_steps", .real s.averageSteps),
    ("average_duration", .real s.averageDuration)] ++
    s.counts.map fun c => (c.1.text ++ "_sessions", .int c.2))

/-- A published flow in brief. -/
def Registry.summary (r : Registry) (f : Flow) : Value :=
  .object [("id", .text f.id), ("name", .ofOption f.name), ("version", .int f.version),
    ("start_node_id", .text f.startNode), ("node_count", .int f.size),
    ("usage_count", .int (((r.usage? f.id).map Usage.count).getD 0))]

/-- How the engine does; one that is not there does nothing. -/
def Surroundings.health (a : Surroundings) (e : Engine) : Value :=
  let count (n : Nat) : Value := .int (if a.isReady then n else 0)
  .object [("status", .text "healthy"), ("version", .text interfaceVersion),
    ("published_flows", count e.registry.list.length),
    ("active_sessions", count e.store.active.length),
    ("sweeper_running", .bool (a.isReady && a.isSweeping))]

/-- What the interface says about itself. -/
def welcomeText : Value :=
  .object [("message", .text "Welcome to the USSD Flow Engine API"),
    ("version", .text interfaceVersion), ("docs_url", .text "/docs")]

/-! ## What a request must hold -/

/-- The caller that a session is to be started for. -/
def Caller.ofValue : Value → Checked Caller :=
  Value.readRecord .notAttributes fun members =>
    Caller.mk <$> Request.readTextField members "flow_id" <*>
      Request.readTextField members "phone_number" <*> Request.readTextField members "ussd_code"

/-- The input to a session. -/
def Request.readInput : Value → Checked String :=
  Value.readRecord .notAttributes fun members => Request.readTextField members "input"

/-- Why a session is to be ended; nothing need be said. -/
def Request.readReason : Option Value → Checked String
  | none | some .null => .ok standardReason
  | some v => Value.readRecord .notAttributes (fun members =>
      Naming.plain.optional members "reason" standardReason Value.readText) v

/-- A flow definition, not yet looked into. -/
def Request.readDefinition : Value → Checked Value :=
  Value.readRecord .notMapping fun members => .ok (.record members)

/-! ## What the engine does -/

namespace Endpoint

/-- Goes on with the flow that a document defines, or answers what is wrong with it. -/
def withFlow [Libraries] (document : Value) (use : Flow → EngineM Response) :
    EngineM Response := do
  match ← loadFlow document with
  | .ok f => use f
  | .error e =>
    return if e.isReported then .refusedText 400 ("Invalid flow definition: " ++ e.message)
      else .broken

/-- What a request to an endpoint makes the engine do, if it holds what it must. -/
def read [Libraries] (x : Endpoint) (a : Surroundings) (r : Request) :
    Except Response (EngineM Response) :=
  match x with
  | startSession => do
    let c ← r.readBody Caller.ofValue
    return do
      let s ← createSession c
      return .ok (s.opening (← screenOf s))
  | sendInput id => do
    let input ← r.readBody Request.readInput
    return do return .ok (.object (← processInput id input).members)
  | terminate id => do
    let reason ← r.readContent Request.readReason
    return do return .ok (← terminateSession id reason).snapshot
  | stats => return do return .ok (← sessionStats (r.address.parameter? "flow_id")).document
  | session id => return do return .ok (← EngineM.session id).snapshot
  | validate => do
    let document ← r.readBody Request.readDefinition
    return withFlow document fun f => do return .ok (.object (← examine f).members)
  | publish => do
    let document ← r.readBody Request.readDefinition
    return withFlow document fun f => do
      let f ← publishFlow f
      return .ok ((← get).registry.summary f)
  | flows => return do
      let registry := (← get).registry
      return .ok (.list (registry.list.map registry.summary))
  | flow id => return do
      let f ← currentFlow id
      return .ok f.definition
  | health => return do return .ok (a.health (← get))
  | metrics => return do return ⟨200, .text "metrics", false⟩
  | welcome => return do return .ok welcomeText

/-- What a request makes the engine do, or its answer if the engine is needed
and not there; what the request holds is looked at first. -/
def work [Libraries] (x : Endpoint) (a : Surroundings) (r : Request) :
    Except Response (EngineM Response) := do
  let w ← x.read a r
  return if a.isReady || !x.needsEngine then w
    else pure (.refusedText 503 "Engine not initialized.")

/-- The answer to a request that the engine could not carry out.  Errors that an
endpoint does not expect break it off. -/
def refusal (x : Endpoint) (error : EngineError) : Response :=
  match x, error with
  | startSession, .flowNotFound .. | flow _, .flowNotFound .. => .refusedText 404 error.message
  | sendInput _, .sessionNotFound _ | terminate _, .sessionNotFound _
  | session _, .sessionNotFound _ => .refusedText 404 error.message
  | sendInput _, .notActive .. | terminate _, .notActive .. => .refusedText 409 error.message
  | sendInput _, .nodeNotFound .. | sendInput _, .flowNotFound .. =>
    .refusedText 500 error.message
  | publish, .invalidFlow report => .refused 422 (.object report.members)
  | _, _ => .broken

/-- The answer that the result of a request comes to. -/
def answer (x : Endpoint) : Except EngineError Response → Response
  | .ok response => response
  | .error error => x.refusal error

/-- Counts an answer with its status, if answers of the endpoint are counted. -/
def tally (x : Endpoint) (status : Nat) (m : Metrics) : Metrics :=
  match x.countedAs? with
  | none => m
  | some name =>
    (m.add (.requestTimes x.method name) 1).add
      (.requests x.method name (Number.natText status)) 1

/-- Carries out a request and counts the answer. -/
def serve (x : Endpoint) (work : EngineM Response) (e : Engine) : Response × Engine :=
  let (r, e) := work.start e
  let response := x.answer r
  (response, { e with metrics := x.tally response.status e.metrics })

end Endpoint

end UssdFlows
