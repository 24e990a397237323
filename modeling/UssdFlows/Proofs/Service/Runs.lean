import UssdFlows.Engine.Task

/-!
# Runs of the service

A *service* is an engine together with the operations in progress.  It goes on
in steps (`Service.Step`): a whole operation is performed at once, a new
operation begins, or one of those in progress goes on to the next place where
it gives way.  The clock is turned by an operation of its own, to any instant.

A whole operation is performed even if others are in progress.  It then passes
through sections that others are in, which a real one would not; what holds of
all these runs holds of the real ones among them.

The service also remembers which flows were published.
-/

namespace UssdFlows

/-- What can be asked of an engine. -/
inductive Operation where
  /-- The clock goes to another instant. -/
  | turnClock (now : Instant)
  | publish (f : Flow)
  | create (c : Caller)
  | input (sessionId text : String)
  | terminate (sessionId reason : String)
  | expire (sessionId : String) (now : Instant)
  | sweep (retention : Int) (now : Instant)
  /-- The end of a sweep, when the sessions that are due were taken out of
  service side by side with other operations. -/
  | drop (retention : Int) (now : Instant)

namespace Operation

/-- Performs an operation, whatever it gives back. -/
def perform : Operation → EngineM Unit
  | turnClock now => modify fun e => { e with now }
  | publish f => do let _ ← publishFlow f
  | create c => do let _ ← createSession c
  | input id text => do let _ ← processInput id text
  | terminate id reason => do let _ ← terminateSession id reason
  | expire id now => do let _ ← expireSession id now
  | sweep retention now => do let _ ← UssdFlows.sweep retention now
  | drop retention now => modify fun e => { e with store := e.store.dropStale retention now }

/-- Only inputs may have something asked of the executor. -/
def IsInput : Operation → Prop
  | input .. => True
  | _ => False

/-- The caller whose session an operation is to start. -/
def caller? : Operation → Option Caller
  | create c => some c
  | _ => none

end Operation

namespace Phase

/-- The caller whose session an operation that is about to begin is to start. -/
def caller? : Phase → Option Caller
  | ready (.create c) => some c
  | _ => none

end Phase

/-- The engine after operations that were performed one after another. -/
def Engine.after (e : Engine) (ops : List Operation) : Engine :=
  ops.foldl (fun e op => (op.perform.start e).2) e

/-- An engine with the operations in progress and the flows published so far. -/
structure Service where
  engine : Engine
  tasks : List Task
  published : List Flow

namespace Service

/-- A service that has seen nothing. -/
def fresh (settings : Settings) (sink : Option Sink) (executor : Option Executor)
    (now : Instant) : Service :=
  ⟨.fresh settings sink executor now, [], []⟩

/-- The flows published once an operation has come to its end. -/
def publishedAfter (published : List Flow) : Operation → Except EngineError Unit → List Flow
  | .publish f, .ok _ => f :: published
  | _, _ => published

/-- Performs a whole operation. -/
def perform (w : Service) (op : Operation) : Service :=
  let r := op.perform.start w.engine
  { w with engine := r.2, published := publishedAfter w.published op r.1 }

/-- Begins an operation. -/
def begin (w : Service) (call : Call) : Service :=
  { w with tasks := w.tasks ++ [⟨w.tasks.length + 1, .ready call⟩] }

/-- Goes on with the task at some place, if there is one. -/
def proceed (w : Service) (i : Nat) : Service :=
  match w.tasks[i]? with
  | some t =>
    let r := t.step w.engine
    { w with engine := r.2, tasks := w.tasks.set i r.1 }
  | none => w

/-- One step of a service. -/
inductive Step : Service → Service → Prop where
  | perform (w : Service) (op : Operation) : Step w (w.perform op)
  | begin (w : Service) (call : Call) : Step w (w.begin call)
  | proceed (w : Service) (i : Nat) : Step w (w.proceed i)

/-- The states that a service can be in. -/
inductive Reachable : Service → Prop where
  | fresh (settings : Settings) (sink : Option Sink) (executor : Option Executor) (now : Instant) :
      Reachable (fresh settings sink executor now)
  | step {w w' : Service} : Reachable w → Step w w' → Reachable w'

/-- No operation is in progress. -/
def IsQuiet (w : Service) : Prop := ∀ t ∈ w.tasks, t.phase.isFinished = true

/-- What may go wrong with an operation: nodes are never missing and turns never
take too many steps, and a flow is missing only if a session of it is to be
started and it was never published. -/
def Permits (w : Service) (caller : Option Caller) : EngineError → Prop
  | .nodeNotFound .. | .tooManySteps => False
  | .flowNotFound flowId _ =>
    ∃ c, caller = some c ∧ c.flowId = flowId ∧ ∀ f ∈ w.published, f.id ≠ flowId
  | _ => True

end Service

end UssdFlows
