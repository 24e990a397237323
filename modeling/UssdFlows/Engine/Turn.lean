import UssdFlows.Engine.Basic
import UssdFlows.Screen

/-!
# Turns

A turn takes one input through a session: the input is recorded, the handler of
the current node interprets it, and the session advances, completes, or stays
with an error shown.  While a session stands at a conditional node the turn
goes on without input.

The turn is a small machine: a stage is performed (`perform`), and the state
reached says which stage comes next (`next?`).  The number of stages of a turn
is bounded (`stageLimit`).
-/

namespace UssdFlows

/-- The stages of a turn. -/
inductive Stage where
  | recordInput
  | dispatch
  | advance
  | complete
  | reprompt
  | respond
  deriving DecidableEq, Repr

/-- The word for a stage. -/
def Stage.text : Stage → String
  | recordInput => "record_input"
  | dispatch => "dispatch"
  | advance => "advance"
  | complete => "complete"
  | reprompt => "reprompt"
  | respond => "respond"

/-- A turn in progress. -/
structure Turn where
  sessionId : String
  /-- The version of the flow that the session is pinned to. -/
  flow : Flow
  /-- The node that is interpreted. -/
  node : Node
  /-- What the caller typed; nothing when a new session is settled. -/
  input : Option String
  /-- What came out of the last interpretation. -/
  outcome : Option Outcome
  /-- The number of nodes entered in this turn. -/
  hops : Nat
  prompt : String
  error : Option String
  isFinished : Bool
  metadata : Dict Value

namespace Turn

/-- A turn that is about to start. -/
def start (sessionId : String) (flow : Flow) (node : Node) (input : Option String) : Turn :=
  { sessionId, flow, node, input, outcome := none, hops := 0, prompt := "", error := none,
    isFinished := false, metadata := .empty }

/-! ## Which stage comes next -/

/-- The first stage: an input is recorded; without one a conditional node is
interpreted and any other is shown. -/
def entry (t : Turn) : Stage :=
  if t.input.isSome then .recordInput else if t.node.isTransient then .dispatch else .respond

/-- The stage after an interpretation. -/
def afterDispatch (t : Turn) : Stage :=
  match t.outcome with
  | none => .reprompt
  | some o => match o.move with
    | .stay _ => .reprompt
    | .finish => .complete
    | .to _ => .advance

/-- The stage after a move. -/
def afterAdvance (t : Turn) : Stage := if t.node.isTransient then .dispatch else .respond

/-- The stage that follows a stage, given the state it leaves. -/
def next? (t : Turn) : Stage → Option Stage
  | .recordInput => some .dispatch
  | .dispatch => some t.afterDispatch
  | .advance => some t.afterAdvance
  | .complete | .reprompt | .respond => none

/-! ## What the stages do -/

open EngineM

/-- Appends the input to the history and renews the time of expiry. -/
def recordInput (t : Turn) : EngineM Turn := do
  let e ← get
  let input := t.input.getD ""
  let s ← change t.sessionId fun s => s.record input e.now
  let renewed ← ofOption .timeOutOfRange (s.renew? e.now e.settings.sessionTimeout)
  let s ← change t.sessionId fun _ => renewed
  emit .inputReceived s none [("input", .text input), ("step", .int s.stepCount)]
  return t

/-- What the handler is given as input: what the caller typed, at the first
node of the turn only. -/
def givenInput (t : Turn) : String := if t.hops = 0 then t.input.getD "" else ""

/-- Who interprets the input at a node: its handler, or a fixed outcome put in
the place of it. -/
def interpreter (e : Engine) (n : Node) : Handler ⊕ Except HandlerError Outcome :=
  match e.replaced.lookup n.kind with
  | some outcome => .inr outcome
  | none => .inl (.ofKind n.kind)

/-- A request that an executor has been given, with those before it. -/
structure Pending where
  earlier : List ActionRequest
  request : ActionRequest

/-- The first half of an interpretation: an action is announced, and the
executor is asked if there is one. -/
def ask (t : Turn) : EngineM (Option Pending) := do
  let s ← served t.sessionId
  if t.node.isAction then
    emit .actionInitiated s (some t.node.id) [("action", .text t.node.kind.text)]
  let e ← get
  match interpreter e t.node with
  | .inr _ => return none
  | .inl h =>
    if h.runsAction t.node && e.executor.isSome then
      let request : ActionRequest := ⟨t.node, s⟩
      set { e with requests := e.requests ++ [request] }
      return some ⟨e.requests, request⟩
    else return none

/-- How an executor answers a request. -/
def Pending.answer (p : Pending) (x : Executor) : ActionResult :=
  (x.answer p.earlier p.request).toResult

/-- The result of the action of a node. -/
def actionResult (e : Engine) (pending : Option Pending) : ActionResult :=
  match pending, e.executor with
  | some p, some x => p.answer x
  | _, _ => .failed "No action executor configured"

/-- The second half of an interpretation: the result of an action is counted,
and the handler gives the outcome. -/
def hear (t : Turn) (pending : Option Pending) : EngineM Turn := do
  let e ← get
  let s ← served t.sessionId
  let outcome ← match interpreter e t.node with
    | .inr outcome => ofResult (outcome.mapError .handler)
    | .inl h => do
      let result := actionResult e pending
      if h.runsAction t.node then
        if pending.isSome then count (.actionTimes t.node.kind)
        count (.actions t.node.kind result.succeeded)
      ofResult ((h.handle t.node s.bindings t.givenInput result).mapError .handler)
  return { t with
    outcome := some outcome
    metadata := t.metadata.putAll outcome.metadata.items }

/-- Has the input interpreted at the current node. -/
def dispatch (t : Turn) : EngineM Turn := do
  let pending ← t.ask
  t.hear pending

/-- Moves a session to a node of its flow. -/
def navigate (sessionId : String) (flow : Flow) (nodeId : String) : EngineM Node := do
  let n ← nodeOf flow (some nodeId)
  let e ← get
  let s ← change sessionId fun s => { s with currentNode := some nodeId, lastActivityAt := e.now }
  count (.visits n.kind)
  emit .nodeVisited s none [("node_type", .text n.kind.text)]
  return n

/-- Moves the session to the node that was chosen, and stores what was
captured.  The node is looked up before anything is changed. -/
def advance (t : Turn) : EngineM Turn := do
  let some outcome := t.outcome | throw .noTarget
  let some target := outcome.target? | throw .noTarget
  let n ← navigate t.sessionId t.flow target
  let _ ← change t.sessionId fun s => s.capture outcome.captured
  return { t with node := n, hops := t.hops + 1, outcome := none }

/-- The text shown to a caller who types nothing further. -/
def farewell : String := "Thank you. Goodbye."

/-- The text shown when a session is over: that of an end node, if it has one. -/
def closing (n : Option Node) (s : Session) : String :=
  match n with
  | some n =>
    if n.kind == .terminal && n.text != "" then Screen.render (some n) s.bindings none else farewell
  | none => farewell

/-- Completes a session that is active. -/
def finishSession (sessionId : String) : EngineM Session := do
  let s ← served sessionId
  if !s.isActive then throw (.notActive sessionId s.status)
  let e ← get
  let s ← change sessionId fun s =>
    { s with status := .completed, completedAt := some e.now, lastActivityAt := e.now }
  modify fun e => { e with registry := e.registry.countUse s.flowId e.now }
  add .activeSessions (-1)
  count (.sessions .completed)
  emit .sessionCompleted s none
    [("duration", .real (s.duration (some e.now) e.now)), ("steps", .int s.stepCount)]
  return s

/-- Stores what was captured, completes the session and shows the closing text. -/
def complete (t : Turn) : EngineM Turn := do
  if let some outcome := t.outcome then
    let _ ← change t.sessionId fun s => s.capture outcome.captured
  let s ← finishSession t.sessionId
  return { t with isFinished := true, prompt := closing (some t.node) s }

/-- The error that is shown: the one of the outcome, or a general one. -/
def shownError (t : Turn) : String :=
  match (t.outcome.bind Outcome.error?).filter (· ≠ "") with
  | some message => message
  | none => "Unexpected error"

/-- Leaves the session where it is and shows the error above the prompt. -/
def reprompt (t : Turn) : EngineM Turn := do
  let s ← served t.sessionId
  let message := t.shownError
  emit .errorOccurred s none [("error_message", .text message), ("input", .ofOption t.input)]
  return { t with
    error := some message
    prompt := Screen.render (some t.node) s.bindings (some message) }

/-- Shows the node that now awaits input. -/
def respond (t : Turn) : EngineM Turn := do
  let s ← served t.sessionId
  return { t with prompt := Screen.render (some t.node) s.bindings none }

/-- Performs a stage. -/
def perform (t : Turn) : Stage → EngineM Turn
  | .recordInput => t.recordInput
  | .dispatch => t.dispatch
  | .advance => t.advance
  | .complete => t.complete
  | .reprompt => t.reprompt
  | .respond => t.respond

/-! ## Whole turns -/

/-- Performs stages from the given one on, at most so many. -/
def run : (limit : Nat) → Stage → Turn → EngineM Turn
  | 0, _, _ => throw .tooManySteps
  | limit + 1, stage, t => do
    let t ← t.perform stage
    match t.next? stage with
    | none => return t
    | some stage => run limit stage t

/-- The greatest number of stages of a turn in a flow. -/
def stageLimit (f : Flow) : Nat := max 25 (2 * f.size + 10)

/-- Performs a whole turn. -/
def play (t : Turn) : EngineM Turn := run (stageLimit t.flow) t.entry t

end Turn

end UssdFlows
