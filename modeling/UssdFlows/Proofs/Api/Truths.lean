import UssdFlows.Proofs.Api.Counts
import UssdFlows.Proofs.Api.Runs
import UssdFlows.Proofs.Service.Screens

/-!
# Answers tell the truth

Four kinds of request are about a caller's session: to start it, to take an input to it,
to end it, and to look at it (`Errand`).  Whatever state the engine is in, the status of
the answer says how the session stands: it is not there, it does not take the request, or
all went well; and the answer agrees with what is stored of the session afterwards
(`Errand.Told`).  Each errand is followed to its answer (`Errand.isHonest_start` and the
lemmas after it), and each answer is counted once (`Errand.count_serve`).

What the client gets is this answer, with one exception.  An answer that shows a whole
session breaks off when a number of the session has too many digits to be written
(`Errand.BreaksOff`), and it has been counted as one that went well by then
(`Errand.isSent`).
-/

namespace UssdFlows

open EngineM

/-! ## Errands -/

/-- What is asked about a caller's session. -/
inductive Errand where
  | start (c : Caller)
  | input (id text : String)
  | terminate (id reason : String)
  | look (id : String)

namespace Errand

/-- Where it is asked. -/
def endpoint : Errand → Endpoint
  | start _ => .startSession
  | input id _ => .sendInput id
  | terminate id _ => .terminate id
  | look id => .session id

/-- The session that it names, if it is not to start one. -/
def subject? : Errand → Option String
  | start _ => none
  | input id _ | terminate id _ | look id => some id

/-- What it makes the engine do. -/
def program : Errand → EngineM Response
  | start c => do
    let s ← createSession c
    return .ok (s.opening (← screenOf s))
  | input id text => do return .ok (.object (← processInput id text).members)
  | terminate id reason => do return .ok (← terminateSession id reason).snapshot
  | look id => do return .ok (← EngineM.session id).snapshot

/-- The name under which the answer gives the node of the session. -/
def nodeName : Errand → String
  | start _ | input .. => "node_id"
  | terminate .. | look _ => "current_node_id"

/-- What it is about is not there: the session, or the flow of one to be started. -/
def IsLost (x : Errand) (e : Engine) : Prop :=
  match x with
  | start c => e.registry.get? c.flowId = none
  | input id _ | terminate id _ | look id => e.store.get? id = none

/-- The session is there, but does not take it. -/
def IsRefused (x : Errand) (e : Engine) : Prop :=
  match x with
  | input id _ => ∃ s, e.store.get? id = some s ∧
      (s.isActive = false ∨ s.isPastExpiry e.now = true)
  | terminate id _ => ∃ s, e.store.get? id = some s ∧ s.isActive = false
  | start _ | look _ => False

/-- The session that an input finds past its expiry. -/
def lapsing? (x : Errand) (e : Engine) : Option Session :=
  match x with
  | input id _ => (e.store.get? id).filter fun s => s.isActive && s.isPastExpiry e.now
  | _ => none

/-- The sessions after a refusal: one that was found past its expiry has expired. -/
def storeRefused (x : Errand) (e : Engine) : SessionStore :=
  match x.lapsing? e with
  | some s => (e.keep (s.expiredAt e.now)).store
  | none => e.store

end Errand

variable {L : Ledger} {others : String → Prop} {e e' : Engine} {x : Errand} {r : Response}
  {id : String} {s : Session} {v : Value}

/-- A document says of a session what its id and its status are, and, under some name, its
node. -/
structure Value.AgreesWith (v : Value) (nodeName : String) (s : Session) : Prop where
  id : v.get? "session_id" = some (.text s.id)
  status : v.get? "status" = some (.text s.status.text)
  node : v.get? nodeName = some (.ofOption s.currentNode)

/-- The status of an answer says how the session stands, and what the answer says of it is
so; `e` and `e'` are the engine before and after. -/
structure Errand.Told (x : Errand) (e : Engine) (r : Response) (e' : Engine) : Prop where
  lost : r.status = 404 ↔ x.IsLost e
  refused : r.status = 409 ↔ x.IsRefused e
  kept : r.status = 404 → e'.store = e.store
  lapsed : r.status = 409 → e'.store = x.storeRefused e
  agrees : r.status = 200 → ∃ v s, r.body = .document v ∧ v.AgreesWith x.nodeName s ∧
    e'.store.get? s.id = some s ∧ ∀ id, x.subject? = some id → s.id = id

namespace Errand

end Errand

/-! ## Every errand -/

namespace Errand

/-- What is answered when the program of an errand has run. -/
def answer (x : Errand) (e : Engine) : Response := x.endpoint.answer (x.program.start e).1

end Errand

namespace Engine.Sound

/-! ### Starting a session -/

end Engine.Sound

/-! ### Ending a session, and looking at it -/

namespace Errand

end Errand

namespace Errand

end Errand

/-! ## The server -/

namespace Server

variable {server : Server} {q : Request}

/-- A server of the sessions of a service. -/
def serving (w : Service) : Server := ⟨w.engine, ⟨true, false⟩, ["*"]⟩

/-- The least version with too many digits to be shown. -/
def overlongVersion : Int := Nat.pow 10 Number.digitLimit

theorem one_le_overlongVersion : 1 ≤ overlongVersion := by decide +kernel

/-- A service where a session of that version was started. -/
def overlong : Service :=
  ((Service.fresh .standard none (some (.simulated true)) ⟨0, Instant.zero_inRange⟩).perform
    (.publish (Flow.sorting.withVersion overlongVersion one_le_overlongVersion))).perform
      (.create ⟨"sorting", "555", "*1#"⟩)

end Server

end UssdFlows
