import UssdFlows.Event.Sink
import UssdFlows.Flow.Report
import UssdFlows.Handler
import UssdFlows.Locks
import UssdFlows.Metrics
import UssdFlows.Registry
import UssdFlows.SessionStore
import UssdFlows.Settings.Basic

/-!
# The engine

The engine holds everything that outlives a request: published flows, sessions,
locks, counts, the sink of events, and what the executor of actions was asked.

Its operations are programs over that state (`EngineM`).  A program that fails
keeps what it has done up to there, as the world outside has seen it.
-/

namespace UssdFlows

/-- Why an operation of the engine fails. -/
inductive EngineError where
  | flowNotFound (flowId : String) (version : Option Int)
  | nodeNotFound (flowId : String) (nodeId : Option String)
  | sessionNotFound (sessionId : String)
  | notActive (sessionId : String) (status : SessionStatus)
  | invalidFlow (report : Report)
  | store (error : StoreError)
  | handler (error : HandlerError)
  /-- A session was to move, but no node was chosen. -/
  | noTarget
  /-- A turn has taken as many steps as it may. -/
  | tooManySteps
  /-- A time lies outside of the years that can be written. -/
  | timeOutOfRange
  deriving DecidableEq

namespace EngineError

/-- The wording of an engine error. -/
def message : EngineError → String
  | flowNotFound flowId version =>
    let number := match version with
      | some v => " (version " ++ Number.intText v ++ ")"
      | none => ""
    "Flow '" ++ flowId ++ "'" ++ number ++ " is not published"
  | nodeNotFound flowId nodeId =>
    "Node '" ++ nodeId.getD "None" ++ "' not found in flow '" ++ flowId ++ "'"
  | sessionNotFound id => "Session '" ++ id ++ "' not found"
  | notActive id status => "Session '" ++ id ++ "' is " ++ status.text ++ ", not active"
  | invalidFlow report =>
    "Flow '" ++ report.flowId ++ "' has " ++ Number.natText report.errors.length ++
      " validation error(s) and cannot be published"
  | store error => error.message
  | handler error => error.message
  | noTarget => "advance reached without a target node"
  | tooManySteps => "the turn takes too many steps"
  | timeOutOfRange => "the time lies out of range"

end EngineError

/-- Everything that outlives a request. -/
structure Engine where
  settings : Settings
  registry : Registry
  store : SessionStore
  locks : Locks
  metrics : Metrics
  sink : Option Sink
  executor : Option Executor
  /-- What the executor was asked, oldest first. -/
  requests : List ActionRequest
  /-- Kinds of node whose inputs are not interpreted by their own handler, but
  always have the same outcome. -/
  replaced : List (NodeKind × Except HandlerError Outcome)
  /-- The present. -/
  now : Instant
  /-- The number of the next session. -/
  nextSession : Nat
  /-- The number of the next flow that is given without an id. -/
  nextFlow : Nat

/-- A program over the state of the engine. -/
abbrev EngineM := ExceptT EngineError (StateM Engine)

/-- An engine that has seen nothing. -/
def Engine.fresh (settings : Settings) (sink : Option Sink) (executor : Option Executor)
    (now : Instant) : Engine :=
  { settings, registry := .empty, store := .empty, locks := .empty, metrics := .empty, sink,
    executor, requests := [], replaced := [], now, nextSession := 1, nextFlow := 1 }

/-- The id of the session with a number. -/
def sessionId (number : Nat) : String := "sess_" ++ Number.paddedText 16 number

/-- The id of the flow with a number that was given without an id. -/
def spareFlowId (number : Nat) : String := "uuid-" ++ Number.natText number

namespace EngineM

variable {α : Type}

/-- Runs a program; the state is kept also if it fails. -/
def start (x : EngineM α) (e : Engine) : Except EngineError α × Engine := x e

/-- Runs a program and goes on with its result, also if it fails. -/
def attempt (x : EngineM α) : EngineM (Except EngineError α) := fun e =>
  let (r, e) := x.start e
  (.ok r, e)

/-- Succeeds or fails as a result says. -/
def ofResult (r : Except EngineError α) : EngineM α := fun e => (r, e)

/-- Succeeds with the value of an option, or fails. -/
def ofOption (error : EngineError) : Option α → EngineM α
  | some a => pure a
  | none => throw error

/-- Adds to a count. -/
def add (m : Metric) (n : Int) : EngineM Unit :=
  modify fun e => { e with metrics := e.metrics.add m n }

/-- Counts something once. -/
def count (m : Metric) : EngineM Unit := add m 1

/-- Publishes an event of a session. -/
def emit (type : EventType) (s : Session) (node : Option String) (data : List (String × Value)) :
    EngineM Unit :=
  modify fun e =>
    { e with sink := e.sink.map fun k => k.publish (.ofSession type s node data e.now) }

/-- The session with an id. -/
def session (id : String) : EngineM Session := do
  ofOption (.sessionNotFound id) ((← get).store.get? id)

/-- A session that is being served, and so must be stored. -/
def served (id : String) : EngineM Session := do
  ofOption (.store (.notStored id)) ((← get).store.get? id)

/-- Changes the session with an id and returns it. -/
def change (id : String) (f : Session → Session) : EngineM Session := do
  modify fun e => { e with store := e.store.modify id f }
  served id

/-- The flow that a session is pinned to. -/
def flowOf (s : Session) : EngineM Flow := do
  ofOption (.flowNotFound s.flowId (some s.flowVersion))
    ((← get).registry.version? s.flowId s.flowVersion)

/-- The node of a flow with the id that a session names. -/
def nodeOf (f : Flow) (id : Option String) : EngineM Node :=
  ofOption (.nodeNotFound f.id id) (id.bind f.node?)

/-! ## Locked sections -/

/-- The only visitor while operations run one after another. -/
def solo : Visitor := 0

/-- Checks a lock out and asks to enter; returns the number of the lock. -/
def enterLock (key : String) (v : Visitor) : EngineM Nat :=
  modifyGet fun e =>
    let (number, locks) := e.locks.checkOut key
    (number, { e with locks := locks.enter number v })

/-- Leaves a lock and checks it in. -/
def leaveLock (key : String) (number : Nat) (v : Visitor) : EngineM Unit :=
  modify fun e => { e with locks := (e.locks.leave number v).checkIn key }

/-- Forgets the lock of a key that nobody uses. -/
def discard (key : String) : EngineM Unit :=
  modify fun e => { e with locks := e.locks.discard key }

/-- Runs a program inside the section of a key, while nothing else is going on. -/
def hold (key : String) (body : EngineM α) : EngineM α := do
  let number ← enterLock key solo
  let r ← attempt body
  leaveLock key number solo
  ofResult r

/-! ## Laws -/

/-- A program that follows another one runs in the state that one leaves. -/
theorem start_bind {β : Type} (x : EngineM α) (f : α → EngineM β) (e : Engine) :
    (x >>= f).start e =
      match x.start e with
      | (.ok a, e') => (f a).start e'
      | (.error err, e') => (.error err, e') := by
  unfold start
  show (ExceptT.bind x f) e = _
  simp only [ExceptT.bind, ExceptT.mk, bind, StateT.bind]
  rcases x e with ⟨r | r, e'⟩ <;> rfl

/-- A program that does nothing leaves the state. -/
@[simp] theorem start_pure (a : α) (e : Engine) : (pure a : EngineM α).start e = (.ok a, e) := rfl

/-- A failing program leaves the state. -/
@[simp] theorem start_throw (err : EngineError) (e : Engine) :
    (throw err : EngineM α).start e = (.error err, e) := rfl

/-- Attempting a program has its effects and never fails. -/
@[simp] theorem start_attempt (x : EngineM α) (e : Engine) :
    (attempt x).start e = (.ok (x.start e).1, (x.start e).2) := rfl

end EngineM

end UssdFlows
