import UssdFlows.Engine.Turn
import UssdFlows.Flow.Loading

/-!
# Operations of the engine

Publishing flows, starting sessions, taking inputs, ending sessions, and
sweeping up those that have been idle for too long.  Every change of a session
happens inside the locked section of its id, and a session is started inside
the section of its caller, so that a caller has one live session.
-/

namespace UssdFlows

open EngineM

/-! ## Flows -/

/-- Loads a flow; one without id takes the next spare one. -/
def loadFlow [Libraries] (document : Value) : EngineM (Except LoadError Flow) :=
  modifyGet fun e =>
    (Flow.load (spareFlowId e.nextFlow) document,
      if Flow.takesSpareId document then { e with nextFlow := e.nextFlow + 1 } else e)

/-- Examines a flow, and counts the verdict. -/
def examine (f : Flow) : EngineM Report := do
  let e ← get
  let report := f.report { Limits.standard with promptLength := e.settings.maxPromptLength }
  count (.validations report.isValid)
  return report

/-- Publishes a flow that has no errors; returns it as stored. -/
def publishFlow (f : Flow) : EngineM Flow := do
  let report ← examine f
  if !report.isValid then throw (.invalidFlow report)
  let (stored, registry) := (← get).registry.publish f
  modify fun e => { e with registry }
  return stored

/-! ## Starting sessions -/

/-- A caller of a flow. -/
structure Caller where
  flowId : String
  phoneNumber : String
  ussdCode : String
  deriving DecidableEq, Repr

/-- The key under which sessions of a caller are started. -/
def Caller.key (c : Caller) : String :=
  "start:" ++ c.flowId ++ ":" ++ c.phoneNumber ++ ":" ++ c.ussdCode

/-- The next session id, which is used up. -/
def takeSessionId : EngineM String :=
  modifyGet fun e => (sessionId e.nextSession, { e with nextSession := e.nextSession + 1 })

/-- A new session of a caller, at the start of a flow; it is not stored yet. -/
def newSession (f : Flow) (c : Caller) : EngineM Session := do
  let e ← get
  let expiry ← ofOption .timeOutOfRange (e.now.afterSeconds? e.settings.sessionTimeout)
  let id ← takeSessionId
  return {
    id, flowId := f.id, flowVersion := f.version, phoneNumber := c.phoneNumber
    ussdCode := c.ussdCode, status := .active, currentNode := some f.startNode
    bindings := f.defaults, history := [], stepCount := 0, startedAt := e.now
    lastActivityAt := e.now, expiresAt := expiry, completedAt := none
    terminationReason := none, metadata := [] }

/-- What is found inside the section of a caller: a live session to go on with,
or a new one, with the turn that settles it. -/
inductive Opening where
  | resumed (s : Session)
  | opened (s : Session) (t : Turn)

/-- Looks for a live session of a caller, and makes a new one if there is none. -/
def openSession (f : Flow) (c : Caller) : EngineM Opening := do
  let e ← get
  match e.store.findLive? c.flowId c.phoneNumber c.ussdCode e.now with
  | some s => return .resumed s
  | none => do
    let s ← newSession f c
    let n ← nodeOf f s.currentNode
    return .opened s (.start s.id f n none)

/-- Stores a new session and reports it. -/
def storeSession (s : Session) : EngineM Unit := do
  let store ← ofResult (((← get).store.create s).mapError .store)
  modify fun e => { e with store }
  add .activeSessions 1
  count (.sessions .started)
  emit .sessionStarted s none
    [("ussd_code", .text s.ussdCode), ("flow_version", .int s.flowVersion)]

/-- The session that a turn has served, which must still be stored. -/
def servedBy (t : Turn) : EngineM Session := served t.sessionId

/-- The current version of a flow that is being served. -/
def currentFlow (flowId : String) : EngineM Flow := do
  ofOption (.flowNotFound flowId none) ((← get).registry.get? flowId)

/-- Stores a new session inside its own section, and settles it. -/
def settleSession (s : Session) (t : Turn) : EngineM Session :=
  hold s.id do
    storeSession s
    servedBy (← t.play)

/-- What is done inside the section of a caller: the session that results, and
whether it is new. -/
def findOrOpen (f : Flow) (c : Caller) : EngineM (Session × Bool) := do
  match ← openSession f c with
  | .resumed s => return (s, false)
  | .opened s t => return (← settleSession s t, true)

/-- Starts a session of a caller, or goes on with the live one. -/
def createSession (c : Caller) : EngineM Session := do
  let f ← currentFlow c.flowId
  let opening ← hold c.key (findOrOpen f c)
  if opening.2 then discard c.key
  return opening.1

/-! ## Taking inputs -/

/-- What a caller is shown after an input. -/
structure Navigation where
  sessionId : String
  prompt : String
  isFinished : Bool
  /-- Why the input was not accepted. -/
  error : Option String
  status : SessionStatus
  node : Option String
  deriving DecidableEq, Repr

/-- How the handling of an input ends that led to a result. -/
def Navigation.outcome (r : Navigation) : InputOutcome :=
  if r.error.isSome then .reprompt else if r.isFinished then .completed else .advanced

/-- Takes an active session out of service because it has been idle for too long. -/
def lapse (sessionId : String) (now : Instant) : EngineM Unit := do
  let s ← change sessionId fun s => { s with status := .expired, lastActivityAt := now }
  add .activeSessions (-1)
  count (.sessions .expired)
  emit .sessionExpired s none [("duration", .real (s.duration (some now) (← get).now))]

/-- Whether an input is admitted to a session. -/
inductive Admission where
  | admitted (t : Turn)
  /-- The session is not active. -/
  | rejected (status : SessionStatus)
  /-- The session was active, but has expired by now. -/
  | lapsed

/-- Admits an input to a session that is live. -/
def admission (sessionId : String) (input : String) : EngineM Admission := do
  let s ← session sessionId
  let e ← get
  if !s.isActive then return .rejected s.status
  if s.isPastExpiry e.now then
    lapse sessionId e.now
    return .lapsed
  let f ← flowOf s
  let n ← nodeOf f s.currentNode
  return .admitted (.start sessionId f n (some input))

/-- What a finished turn shows. -/
def navigationOf (t : Turn) : EngineM Navigation := do
  let s ← servedBy t
  return ⟨t.sessionId, t.prompt, t.isFinished, t.error, s.status, s.currentNode⟩

/-- What the handling of an input inside the section of its session comes to:
a result, or a refusal because of the session's status. -/
abbrev Answered := Navigation ⊕ InputOutcome × SessionStatus

/-- Handles an input inside the section of its session. -/
def answerInput (sessionId input : String) : EngineM Answered := do
  match ← admission sessionId input with
  | .rejected status => return .inr (.rejected, status)
  | .lapsed => return .inr (.expired, .expired)
  | .admitted t => return .inl (← navigationOf (← t.play))

/-- How the handling of an input is counted. -/
def outcomeOf : Except EngineError Answered → InputOutcome
  | .ok (.inl r) => r.outcome
  | .ok (.inr (outcome, _)) => outcome
  | .error _ => .error

/-- Counts the handling of an input, forgets the lock of a session that is
over, and gives the result or the failure. -/
def concludeInput (sessionId : String) (r : Except EngineError Answered) : EngineM Navigation := do
  let outcome := outcomeOf r
  count (.inputs outcome)
  count .inputTimes
  if outcome = .completed || outcome = .expired then discard sessionId
  match ← ofResult r with
  | .inl result => return result
  | .inr (_, status) => throw (.notActive sessionId status)

/-- Takes one input to a session. -/
def processInput (sessionId input : String) : EngineM Navigation := do
  concludeInput sessionId (← attempt (hold sessionId (answerInput sessionId input)))

/-! ## Ending sessions -/

/-- Why a session is ended unless something else is said. -/
def standardReason : String := "user_terminated"

/-- Ends an active session, inside its section. -/
def endSession (sessionId reason : String) : EngineM Session := do
  let s ← session sessionId
  if !s.isActive then throw (.notActive sessionId s.status)
  let e ← get
  let s ← change sessionId fun s =>
    { s with status := .terminated, terminationReason := some reason, lastActivityAt := e.now }
  add .activeSessions (-1)
  count (.sessions .terminated)
  emit .sessionTerminated s none
    [("reason", .text reason), ("duration", .real (s.duration (some e.now) e.now))]
  return s

/-- Ends a session that is active. -/
def terminateSession (sessionId reason : String) : EngineM Session := do
  let s ← hold sessionId (endSession sessionId reason)
  discard sessionId
  return s

/-- Takes a session out of service if it is active and has been idle for too
long at some time, inside its section; returns whether it was. -/
def lapseIfDue (sessionId : String) (now : Instant) : EngineM Bool := do
  match (← get).store.get? sessionId with
  | none => return false
  | some s =>
    if s.isActive && s.isPastExpiry now then
      lapse sessionId now
      return true
    else return false

/-- Takes a session out of service if it is active and has been idle for too long. -/
def expireSession (sessionId : String) (now : Instant) : EngineM Bool := do
  let isDone ← hold sessionId (lapseIfDue sessionId now)
  if isDone then discard sessionId
  return isDone

/-- Takes those of some sessions out of service that are due; returns how many. -/
def expireEach (now : Instant) : List String → EngineM Nat
  | [] => return 0
  | id :: rest => do
    let isDone ← expireSession id now
    let count ← expireEach now rest
    return count + isDone.toNat

/-- Takes all sessions out of service that are due, and removes the finished
ones that need not be kept; returns how many were taken out. -/
def sweep (retention : Int) (now : Instant) : EngineM Nat := do
  let count ← expireEach now ((← get).store.lapsed now)
  modify fun e => { e with store := e.store.dropStale retention now }
  return count

/-- Completes a session without a turn. -/
def completeSession (sessionId : String) : EngineM Session := do
  let _ ← session sessionId
  Turn.finishSession sessionId

/-- Moves a session to a node without a turn. -/
def moveSession (sessionId nodeId : String) : EngineM (Session × Node) := do
  let f ← flowOf (← session sessionId)
  let n ← Turn.navigate sessionId f nodeId
  return (← session sessionId, n)

/-! ## What can be seen -/

/-- The screen of a session: the prompt of its node while it is active, and the
closing text after that. -/
def screenOf (s : Session) : EngineM String := do
  let n := s.currentNode.bind (← flowOf s).node?
  return if s.isActive then Screen.render n s.bindings none else Turn.closing n s

/-- Sessions in numbers. -/
structure SessionStats where
  total : Nat
  averageSteps : Binary64
  /-- Of the completed sessions, in seconds. -/
  averageDuration : Binary64
  counts : List (SessionStatus × Nat)
  deriving DecidableEq, Repr

/-- The mean of some numbers, to two decimal places; zero of none. -/
def mean (total : Binary64) (count : Nat) : Binary64 :=
  if count = 0 then .zero else (total.divNat count).roundPlaces 2

/-- Counts the sessions of a flow, or all of them. -/
def sessionStats (flowId : Option String) : EngineM SessionStats := do
  let e ← get
  let sessions := e.store.list none flowId none
  let steps := (sessions.map Session.stepCount).foldl Int.add 0
  let durations := (sessions.filter (·.status == .completed)).map fun s => s.duration none e.now
  return {
    total := sessions.length
    averageSteps :=
      if sessions.isEmpty then .zero
      else (Binary64.ofRatio (decide (steps < 0)) steps.natAbs sessions.length).roundPlaces 2
    averageDuration := mean (durations.foldl Binary64.add .zero) durations.length
    counts := SessionStatus.all.map fun s => (s, (sessions.filter (·.status == s)).length) }

end UssdFlows
