import UssdFlows.Engine.Operations

/-!
# Operations that run side by side

An operation gives way to others while it waits for a section, before each
stage of its turn, and while an action is being carried out.  A task is an
operation in progress, and `Phase.step` takes it to the next of these places;
what lies between two of them happens at once.

The pieces are those that the operations of the engine are made of, so a task
that runs alone does what its operation does.
-/

namespace UssdFlows

open EngineM

/-- The operations that may run side by side. -/
inductive Call where
  | create (c : Caller)
  | input (sessionId text : String)
  | terminate (sessionId reason : String)
  | expire (sessionId : String) (now : Instant)
  deriving DecidableEq, Repr

/-- What an operation gives back. -/
inductive Reply where
  | session (s : Session)
  /-- What the caller is shown, and the session as it is then. -/
  | navigation (r : Navigation) (s : Session)
  | truth (b : Bool)

/-- What the turn of a task is for: to settle a new session inside the section
of its caller, or to answer an input. -/
inductive Purpose where
  | settle (c : Caller) (callerLock : Nat)
  | answer
  deriving DecidableEq, Repr

/-- Where an operation stands.  The numbers are those of the locks it has
checked out. -/
inductive Phase where
  | ready (call : Call)
  /-- Waits for the section of a caller. -/
  | opening (c : Caller) (f : Flow) (callerLock : Nat)
  /-- Waits for the section of a new session. -/
  | settling (c : Caller) (callerLock : Nat) (s : Session) (t : Turn) (lock : Nat)
  /-- Waits for the section of a session. -/
  | entering (call : Call) (sessionId : String) (lock : Nat)
  /-- Is about to perform a stage of a turn, of which so many are left. -/
  | playing (purpose : Purpose) (lock : Nat) (left : Nat) (stage : Stage) (t : Turn)
  /-- Waits for an action to be carried out. -/
  | acting (purpose : Purpose) (lock : Nat) (left : Nat) (pending : Turn.Pending) (t : Turn)
  | finished (r : Except EngineError Reply)

namespace Phase

/-- The lock that an operation waits for. -/
def awaited? : Phase → Option Nat
  | opening _ _ lock | settling _ _ _ _ lock | entering _ _ lock => some lock
  | _ => none

/-- Whether an operation is over. -/
def isFinished : Phase → Bool
  | finished _ => true
  | _ => false

/-- Whether an operation can go on: it is not over, and it is inside the section
it waits for. -/
def canStep (v : Visitor) (e : Engine) (p : Phase) : Bool :=
  !p.isFinished && p.awaited?.all fun lock => e.locks.isInside lock v

/-- Whether others may run before an operation goes on. -/
def givesWay : Phase → Bool
  | playing .. | acting .. | finished _ => true
  | _ => false

/-- The end of a task whose last program is given. -/
def endWith (x : EngineM Reply) : EngineM Phase := do return finished (← attempt x)

/-- Leaves the sections of a turn and gives the result of the operation. -/
def conclude (v : Visitor) (sessionId : String) (lock : Nat) (r : Except EngineError Turn) :
    Purpose → EngineM Reply
  | .settle c callerLock => do
    let r ← attempt do servedBy (← ofResult r)
    leaveLock sessionId lock v
    leaveLock c.key callerLock v
    let s ← ofResult r
    discard c.key
    return .session s
  | .answer => do
    let r ← attempt do navigationOf (← ofResult r)
    leaveLock sessionId lock v
    let shown ← concludeInput sessionId (r.map .inl)
    return .navigation shown (← served sessionId)

/-- Goes on after a stage: to the next one, or to the end of the operation. -/
def afterStage (v : Visitor) (purpose : Purpose) (lock left : Nat) (stage : Stage) (id : String)
    (r : Except EngineError Turn) : EngineM Phase :=
  match r with
  | .error e => endWith (conclude v id lock (.error e) purpose)
  | .ok t =>
    match t.next? stage with
    | none => endWith (conclude v id lock (.ok t) purpose)
    | some stage => return playing purpose lock left stage t

/-- Begins a turn. -/
def beginTurn (purpose : Purpose) (lock : Nat) (t : Turn) : Phase :=
  playing purpose lock (Turn.stageLimit t.flow) t.entry t

/-- Begins an operation: it asks for the section that it needs. -/
def beginCall (v : Visitor) (call : Call) : EngineM Phase :=
  let enter (id : String) : EngineM Phase := do return entering call id (← enterLock id v)
  match call with
  | .create c => do
    match ← attempt (currentFlow c.flowId) with
    | .error e => return finished (.error e)
    | .ok f => return opening c f (← enterLock c.key v)
  | .input id _ => enter id
  | .terminate id _ => enter id
  | .expire id _ => enter id

/-- Looks for a live session inside the section of the caller. -/
def openInside (v : Visitor) (c : Caller) (f : Flow) (callerLock : Nat) : EngineM Phase := do
  match ← attempt (openSession f c) with
  | .ok (.opened s t) => return settling c callerLock s t (← enterLock s.id v)
  | .ok (.resumed s) => endWith do leaveLock c.key callerLock v; return .session s
  | .error e => endWith do leaveLock c.key callerLock v; throw e

/-- Stores a new session inside its section, and begins the turn that settles it. -/
def settleInside (v : Visitor) (c : Caller) (callerLock : Nat) (s : Session) (t : Turn)
    (lock : Nat) : EngineM Phase := do
  match ← attempt (storeSession s) with
  | .ok () => return beginTurn (.settle c callerLock) lock t
  | .error e => endWith (conclude v s.id lock (.error e) (.settle c callerLock))

/-- Goes on inside the section of a session. -/
def goInside (v : Visitor) (id : String) (lock : Nat) : Call → EngineM Phase
  | .input _ text => do
    match ← attempt (admission id text) with
    | .ok (.admitted t) => return beginTurn .answer lock t
    | .ok (.rejected status) => refuse (.ok (.inr (.rejected, status)))
    | .ok .lapsed => refuse (.ok (.inr (.expired, .expired)))
    | .error e => refuse (.error e)
  | .terminate _ reason => endWith do
    let r ← attempt (endSession id reason)
    leaveLock id lock v
    let s ← ofResult r
    discard id
    return .session s
  | .expire _ now => endWith do
    let r ← attempt (lapseIfDue id now)
    leaveLock id lock v
    let isDone ← ofResult r
    if isDone then discard id
    return .truth isDone
  | .create _ => return finished (.error .noTarget)
where
  /-- Leaves the section without a turn. -/
  refuse (r : Except EngineError Answered) : EngineM Phase := endWith do
    leaveLock id lock v
    return .navigation (← concludeInput id r) (← served id)

/-- Performs the next stage of a turn.  An interpretation that needs an action
stops until the action is carried out. -/
def playStage (v : Visitor) (purpose : Purpose) (lock left : Nat) (stage : Stage) (t : Turn) :
    EngineM Phase := do
  match left with
  | 0 => afterStage v purpose lock 0 stage t.sessionId (.error .tooManySteps)
  | left + 1 =>
    if stage = .dispatch then
      match ← attempt t.ask with
      | .ok (some pending) => return acting purpose lock left pending t
      | .ok none =>
        afterStage v purpose lock left stage t.sessionId (← attempt (t.hear none))
      | .error e => afterStage v purpose lock left stage t.sessionId (.error e)
    else afterStage v purpose lock left stage t.sessionId (← attempt (t.perform stage))

/-- Goes on with an operation that can go on. -/
def step (v : Visitor) : Phase → EngineM Phase
  | ready call => beginCall v call
  | opening c f lock => openInside v c f lock
  | settling c callerLock s t lock => settleInside v c callerLock s t lock
  | entering call id lock => goInside v id lock call
  | playing purpose lock left stage t => playStage v purpose lock left stage t
  | acting purpose lock left pending t => do
    afterStage v purpose lock left .dispatch t.sessionId (← attempt (t.hear (some pending)))
  | finished r => return finished r

end Phase

/-! ## Running tasks -/

/-- An operation in progress. -/
structure Task where
  visitor : Visitor
  phase : Phase

namespace Task

/-- Goes on with a task, if it can go on. -/
def step (t : Task) (e : Engine) : Task × Engine :=
  if t.phase.canStep t.visitor e then
    match (t.phase.step t.visitor).start e with
    | (.ok phase, e) => ({ t with phase }, e)
    | (.error err, e) => ({ t with phase := .finished (.error err) }, e)
  else (t, e)

/-- Goes on with a task up to a place where it gives way or waits. -/
def burst : (fuel : Nat) → Task → Engine → Task × Engine
  | 0, t, e => (t, e)
  | fuel + 1, t, e =>
    let (t, e) := t.step e
    if t.phase.givesWay || !t.phase.canStep t.visitor e then (t, e) else burst fuel t e

/-- Gives each task its turn. -/
def round : List Task → Engine → List Task × Engine
  | [], e => ([], e)
  | t :: rest, e =>
    let (t, e) := burst 4 t e
    let (rest, e) := round rest e
    (t :: rest, e)

/-- Gives the tasks their turns again and again, until all are finished or so
many rounds have passed. -/
def rounds : (fuel : Nat) → List Task → Engine → List Task × Engine
  | 0, ts, e => (ts, e)
  | fuel + 1, ts, e =>
    if ts.all (·.phase.isFinished) then (ts, e)
    else
      let (ts, e) := round ts e
      rounds fuel ts e

/-- Starts operations side by side and runs them to their ends.  No task passes
through more phases than twice its stages and a few more. -/
def runAll (calls : List Call) (e : Engine) : List Task × Engine :=
  let tasks := calls.zipIdx.map fun c => (⟨c.2 + 1, .ready c.1⟩ : Task)
  let nodes := (e.registry.versions.items.map Flow.size).foldl max 0
  rounds ((4 * nodes + 64) * (calls.length + 1)) tasks e

end Task

end UssdFlows
