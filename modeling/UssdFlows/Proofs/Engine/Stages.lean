import UssdFlows.Proofs.Engine.Programs
import UssdFlows.Proofs.Interpretation

/-!
# What each stage of a turn does

For every stage of a turn one equation says what performing it comes to when
the session is stored, and one says that it fails, leaving everything as it
was, when the session is not.

The states that result have names: `Engine.received` an input, `Engine.acted`
for a node, `Engine.moved` a session, `Engine.finished` a session.  None of
them touches the service (`Engine.SameService`), and of the stored sessions
only the one that is served.
-/

namespace UssdFlows

open EngineM

namespace Session

/-- The session at another node. -/
def movedTo (s : Session) (n : Node) (now : Instant) : Session :=
  { s with currentNode := some n.id, lastActivityAt := now }

/-- The session when it has been completed. -/
def finishedAt (s : Session) (now : Instant) : Session :=
  { s with status := .completed, completedAt := some now, lastActivityAt := now }

/-- The session when its time runs to an expiry. -/
def expiringAt (s : Session) (expiry : Instant) : Session := { s with expiresAt := expiry }

/-- The session with an input recorded and its time renewed, if that time can be
written. -/
def received? (s : Session) (input : String) (now : Instant) (seconds : Int) : Option Session :=
  (s.record input now).renew? now seconds

/-- Recording and renewing change nothing but the history and the times. -/
theorem received?_eq_some {s s' : Session} {input : String} {now : Instant} {seconds : Int}
    (h : s.received? input now seconds = some s') :
    ∃ expiry, now.afterSeconds? seconds = some expiry ∧
      s' = (s.record input now).expiringAt expiry := by
  rw [received?, renew?] at h
  obtain ⟨expiry, hexp, rfl⟩ := Option.map_eq_some_iff.1 h
  exact ⟨expiry, hexp, rfl⟩

end Session

namespace Engine

/-- The engine when an input to a session was recorded. -/
def received (e : Engine) (s : Session) (input : String) : Engine :=
  (e.keep s).announce .inputReceived s none [("input", .text input), ("step", .int s.stepCount)]

/-- The engine when its executor was asked something. -/
def asked (e : Engine) (r : ActionRequest) : Engine := { e with requests := e.requests ++ [r] }

/-- The engine when the action of a node was announced, and the executor was
asked if there is one. -/
def requested (e : Engine) (n : Node) (s : Session) : Engine :=
  let e' := e.announce .actionInitiated s (some n.id) [("action", .text n.kind.text)]
  if e.executor.isSome then e'.asked ⟨n, s⟩ else e'

/-- The engine when the result of the action of a node was counted. -/
def counted (e : Engine) (n : Node) (wasAsked : Bool) (r : ActionResult) : Engine :=
  (if wasAsked then e.tally (.actionTimes n.kind) 1 else e).tally (.actions n.kind r.succeeded) 1

/-- The result of a request: what the executor says, or that there is none. -/
def resultFor (e : Engine) (r : ActionRequest) : ActionResult :=
  match e.executor with
  | some x => (x.answer e.requests r).toResult
  | none => .failed "No action executor configured"

/-- The engine when an input was interpreted at a node: an action node has had
its action carried out. -/
def acted (e : Engine) (n : Node) (s : Session) : Engine :=
  if n.isAction then (e.requested n s).counted n e.executor.isSome (e.resultFor ⟨n, s⟩) else e

/-- The engine when a session has moved to a node and captured what came out. -/
def moved (e : Engine) (s : Session) (n : Node) (o : Outcome) : Engine :=
  let s' := s.movedTo n e.now
  (((e.keep s').tally (.visits n.kind) 1).announce .nodeVisited s' none
    [("node_type", .text n.kind.text)]).keep (s'.capture o.captured)

/-- The engine when a session has been completed. -/
def finished (e : Engine) (s : Session) : Engine :=
  let s' := s.finishedAt e.now
  let e' := e.keep s'
  ((({ e' with registry := e'.registry.countUse s'.flowId e.now }).tally .activeSessions
    (-1)).tally (.sessions .completed) 1).announce .sessionCompleted s' none
    [("duration", .real (s'.duration (some e.now) e.now)), ("steps", .int s'.stepCount)]

/-! ## The service stays the same -/

variable (e : Engine) (s : Session) (n : Node)

theorem sameService_keep : e.SameService (e.keep s) := ⟨rfl, rfl, rfl, rfl, rfl, rfl, rfl⟩

theorem sameService_announce (type : EventType) (node : Option String)
    (data : List (String × Value)) : e.SameService (e.announce type s node data) :=
  ⟨rfl, rfl, rfl, rfl, rfl, rfl, rfl⟩

theorem sameService_received (input : String) : e.SameService (e.received s input) :=
  ⟨rfl, rfl, rfl, rfl, rfl, rfl, rfl⟩

theorem sameService_requested : e.SameService (e.requested n s) := by
  rw [requested]
  split <;> exact ⟨rfl, rfl, rfl, rfl, rfl, rfl, rfl⟩

theorem sameService_counted (wasAsked : Bool) (r : ActionResult) :
    e.SameService (e.counted n wasAsked r) := by
  rw [counted]
  split <;> exact ⟨rfl, rfl, rfl, rfl, rfl, rfl, rfl⟩

theorem sameService_acted : e.SameService (e.acted n s) := by
  rw [acted]
  split
  · exact (e.sameService_requested s n).trans (sameService_counted _ n _ _)
  · exact .refl e

theorem sameService_moved (o : Outcome) : e.SameService (e.moved s n o) :=
  ⟨rfl, rfl, rfl, rfl, rfl, rfl, rfl⟩

theorem sameService_finished : e.SameService (e.finished s) := ⟨rfl, rfl, rfl, rfl, rfl, rfl, rfl⟩

/-! ## The store -/

@[simp] theorem store_announce (type : EventType) (node : Option String)
    (data : List (String × Value)) : (e.announce type s node data).store = e.store := rfl

@[simp] theorem store_tally (m : Metric) (k : Int) : (e.tally m k).store = e.store := rfl

@[simp] theorem store_received (input : String) : (e.received s input).store = (e.keep s).store :=
  rfl

@[simp] theorem store_requested : (e.requested n s).store = e.store := by
  rw [requested]
  split <;> rfl

@[simp] theorem store_counted (wasAsked : Bool) (r : ActionResult) :
    (e.counted n wasAsked r).store = e.store := by
  rw [counted]
  split <;> rfl

@[simp] theorem store_acted : (e.acted n s).store = e.store := by
  rw [acted]
  split
  · rw [store_counted, store_requested]
  · rfl

theorem store_moved (o : Outcome) :
    (e.moved s n o).store = (e.keep ((s.movedTo n e.now).capture o.captured)).store :=
  have h : ((e.keep (s.movedTo n e.now)).keep ((s.movedTo n e.now).capture o.captured)).store =
      (e.keep ((s.movedTo n e.now).capture o.captured)).store :=
    congrArg Engine.store (keep_keep e rfl)
  h

/-- What is kept just before a session is completed makes no difference. -/
theorem finished_keep : (e.keep s).finished s = e.finished s := by
  have h : (e.keep s).keep (s.finishedAt e.now) = e.keep (s.finishedAt e.now) := keep_keep e rfl
  rw [finished, finished, show (e.keep s).now = e.now from rfl, h]

@[simp] theorem store_finished : (e.finished s).store = (e.keep (s.finishedAt e.now)).store := rfl

variable {e s n}

theorem get?_moved {id : String} (h : s.id = id) (o : Outcome) :
    (e.moved s n o).store.get? id = some ((s.movedTo n e.now).capture o.captured) := by
  rw [store_moved, get?_keep]
  exact if_pos h

theorem get?_finished {id : String} (h : s.id = id) :
    (e.finished s).store.get? id = some (s.finishedAt e.now) := by
  rw [store_finished, get?_keep]
  exact if_pos h

variable (e s n)

/-! ## The requests -/

@[simp] theorem requests_received (input : String) :
    (e.received s input).requests = e.requests := rfl

@[simp] theorem requests_counted (wasAsked : Bool) (r : ActionResult) :
    (e.counted n wasAsked r).requests = e.requests := by
  rw [counted]
  split <;> rfl

theorem requests_requested :
    (e.requested n s).requests =
      if e.executor.isSome then e.requests ++ [⟨n, s⟩] else e.requests := by
  rw [requested]
  split <;> rfl

theorem requests_acted :
    (e.acted n s).requests =
      if n.isAction && e.executor.isSome then e.requests ++ [⟨n, s⟩] else e.requests := by
  rw [acted]
  cases n.isAction with
  | false => rfl
  | true => rw [if_pos rfl, requests_counted, requests_requested, Bool.true_and]

end Engine

/-! ## The stages -/

namespace Turn

/-- The turn when an input was interpreted. -/
def heard (t : Turn) (o : Outcome) : Turn :=
  { t with outcome := some o, metadata := t.metadata.putAll o.metadata.items }

/-- The turn when its session has moved to a node. -/
def arrived (t : Turn) (n : Node) : Turn := { t with node := n, hops := t.hops + 1, outcome := none }

variable {e : Engine} {t : Turn} {s : Session}

section Stored

variable (h : e.store.get? t.sessionId = some s)

include h

/-- Recording fails, after the input was appended, if the time of expiry cannot
be written. -/
theorem start_recordInput :
    t.recordInput.start e =
      match s.received? (t.input.getD "") e.now e.settings.sessionTimeout with
      | some s' => (.ok t, e.received s' (t.input.getD ""))
      | none => (.error .timeOutOfRange, e.keep (s.record (t.input.getD "") e.now)) := by
  have hrec : (change t.sessionId fun s => s.record (t.input.getD "") e.now).start e =
      (.ok (s.record (t.input.getD "") e.now), e.keep (s.record (t.input.getD "") e.now)) :=
    start_change_of_stored h rfl
  have hid : s.id = t.sessionId := KeyedList.key_of_find? h
  rw [recordInput, start_bind_of_ok (start_get e)]
  dsimp only
  rw [start_bind_of_ok hrec, ← Session.received?]
  cases hr : s.received? (t.input.getD "") e.now e.settings.sessionTimeout with
  | none => rw [start_bind_of_error (start_ofOption_none ..)]
  | some s' =>
      have hid' : s'.id = s.id := by
        obtain ⟨expiry, -, rfl⟩ := Session.received?_eq_some hr
        rfl
      have hget : (e.keep (s.record (t.input.getD "") e.now)).store.get? t.sessionId =
          some (s.record (t.input.getD "") e.now) := by
        rw [Engine.get?_keep]
        exact if_pos hid
      rw [start_bind_of_ok (start_ofOption_some ..),
        start_bind_of_ok (start_change_of_stored hget hid'),
        Engine.keep_keep e (show (s.record (t.input.getD "") e.now).id = s'.id from hid'.symm)]
      rfl

/-- What the executor is asked: nothing unless the node has an action. -/
theorem start_ask_of_not_isAction (hr : e.replaced = []) (ha : t.node.isAction = false) :
    t.ask.start e = (.ok none, e) := by
  have hi : interpreter e t.node = .inl (.ofKind t.node.kind) := by
    rw [interpreter, hr]
    rfl
  rw [ask, start_bind_of_ok (start_served_of_stored h), ha]
  simp only [Bool.false_eq_true, if_false, start_bind, start_pure, start_get, hi,
    Node.runsAction_ofKind, ha, Bool.false_and]

theorem start_ask_of_isAction (hr : e.replaced = []) (ha : t.node.isAction = true) :
    t.ask.start e =
      (.ok (if e.executor.isSome then some ⟨e.requests, ⟨t.node, s⟩⟩ else none),
        e.requested t.node s) := by
  have hi : interpreter (e.announce .actionInitiated s (some t.node.id)
      [("action", .text t.node.kind.text)]) t.node = .inl (.ofKind t.node.kind) := by
    rw [interpreter, show (e.announce .actionInitiated s (some t.node.id)
      [("action", .text t.node.kind.text)]).replaced = [] from hr]
    rfl
  rw [ask, start_bind_of_ok (start_served_of_stored h), ha]
  simp only [if_true, start_bind, start_emit, start_get, hi, Node.runsAction_ofKind, ha,
    Bool.true_and, Engine.requested]
  show (if e.executor.isSome = true then _ else _ : EngineM _).start _ = _
  cases hx : e.executor.isSome with
  | false => rfl
  | true => rfl

/-- The result of an action is counted before it is interpreted. -/
theorem start_hear (hr : e.replaced = []) (pending : Option Pending) :
    (t.hear pending).start e =
      let r := actionResult e pending
      let e' := if t.node.isAction then e.counted t.node pending.isSome r else e
      match t.node.interpret s.bindings t.givenInput r with
      | .ok o => (.ok (t.heard o), e')
      | .error err => (.error (.handler err), e') := by
  have hi : interpreter e t.node = .inl (.ofKind t.node.kind) := by
    rw [interpreter, hr]
    rfl
  rw [hear, start_bind_of_ok (start_get e), start_bind_of_ok (start_served_of_stored h)]
  dsimp only
  rw [hi]
  dsimp only
  rw [Node.runsAction_ofKind, Node.interpret]
  cases t.node.isAction with
  | false =>
      cases (Handler.ofKind t.node.kind).handle t.node s.bindings t.givenInput
        (actionResult e pending) <;> rfl
  | true =>
      cases pending with
      | none =>
          cases (Handler.ofKind t.node.kind).handle t.node s.bindings t.givenInput
            (actionResult e none) <;> rfl
      | some p =>
          cases (Handler.ofKind t.node.kind).handle t.node s.bindings t.givenInput
            (actionResult e (some p)) <;> rfl

/-- Moving looks the node up first; then the session is there, with what was
captured. -/
theorem start_advance {o : Outcome} {target : String} {n : Node} (ho : t.outcome = some o)
    (ht : o.target? = some target) (hn : t.flow.node? target = some n) :
    t.advance.start e = (.ok (t.arrived n), e.moved s n o) := by
  have hid : s.id = t.sessionId := KeyedList.key_of_find? h
  have hnid : n.id = target := KeyedList.key_of_find? hn
  subst hnid
  have hmove : (change t.sessionId fun s =>
      { s with currentNode := some n.id, lastActivityAt := e.now }).start e =
      (.ok (s.movedTo n e.now), e.keep (s.movedTo n e.now)) := start_change_of_stored h rfl
  have hnav : (navigate t.sessionId t.flow n.id).start e =
      (.ok n, ((e.keep (s.movedTo n e.now)).tally (.visits n.kind) 1).announce .nodeVisited
        (s.movedTo n e.now) none [("node_type", .text n.kind.text)]) := by
    rw [navigate, start_bind_of_ok (start_nodeOf_of_some (by exact hn) e),
      start_bind_of_ok (start_get e)]
    rw [start_bind_of_ok hmove]
    rfl
  have hget : (((e.keep (s.movedTo n e.now)).tally (.visits n.kind) 1).announce .nodeVisited
      (s.movedTo n e.now) none [("node_type", .text n.kind.text)]).store.get? t.sessionId =
      some (s.movedTo n e.now) := by
    rw [Engine.store_announce, Engine.store_tally, Engine.get?_keep]
    exact if_pos hid
  rw [advance, ho]
  dsimp only
  rw [ht]
  dsimp only
  rw [start_bind_of_ok hnav, start_bind_of_ok (start_change_of_stored hget rfl)]
  rfl

/-- A session moves to the node that was chosen, or nothing is done: no node was
chosen, or the flow has none of that name. -/
theorem start_advance_cases :
    (∃ err, t.advance.start e = (.error err, e)) ∨
      ∃ o target n, t.outcome = some o ∧ o.target? = some target ∧
        t.flow.node? target = some n ∧ t.advance.start e = (.ok (t.arrived n), e.moved s n o) := by
  cases ho : t.outcome with
  | none =>
      refine Or.inl ⟨.noTarget, ?_⟩
      rw [advance, ho]
      rfl
  | some o =>
      cases ht : o.target? with
      | none =>
          refine Or.inl ⟨.noTarget, ?_⟩
          rw [advance, ho]
          dsimp only
          rw [ht]
          rfl
      | some target =>
          cases hn : t.flow.node? target with
          | none =>
              have hnone : (nodeOf t.flow (some target)).start e =
                  (.error (.nodeNotFound t.flow.id (some target)), e) := by
                rw [nodeOf, Option.bind_some, hn, start_ofOption_none]
              refine Or.inl ⟨.nodeNotFound t.flow.id (some target), ?_⟩
              rw [advance, ho]
              dsimp only
              rw [ht]
              dsimp only
              rw [navigate, start_bind_of_error (start_bind_of_error hnone)]
          | some n => exact Or.inr ⟨o, target, n, rfl, ht, hn, start_advance h ho ht hn⟩

omit h in
theorem start_finishSession {id : String} (h : e.store.get? id = some s)
    (ha : s.isActive = true) :
    (finishSession id).start e = (.ok (s.finishedAt e.now), e.finished s) := by
  have hfin : (change id fun s => { s with
      status := .completed, completedAt := some e.now, lastActivityAt := e.now }).start e =
      (.ok (s.finishedAt e.now), e.keep (s.finishedAt e.now)) := start_change_of_stored h rfl
  rw [finishSession, start_bind_of_ok (start_served_of_stored h), ha]
  simp only [Bool.not_true, Bool.false_eq_true, if_false, start_bind, start_pure, start_get, hfin]
  rfl

omit h in
theorem start_finishSession_of_not_isActive {id : String} (h : e.store.get? id = some s)
    (ha : s.isActive = false) :
    (finishSession id).start e = (.error (.notActive id s.status), e) := by
  rw [finishSession, start_bind_of_ok (start_served_of_stored h), ha]
  rfl

/-- What came out is captured before the session is completed. -/
theorem start_complete_eq {o : Outcome} (ho : t.outcome = some o) :
    t.complete.start e =
      match (finishSession t.sessionId).start (e.keep (s.capture o.captured)) with
      | (.ok s', e') => (.ok { t with
          isFinished := true, prompt := closing (some t.node) s' }, e')
      | (.error err, e') => (.error err, e') := by
  have hcap : (change t.sessionId fun s => s.capture o.captured).start e =
      (.ok (s.capture o.captured), e.keep (s.capture o.captured)) := start_change_of_stored h rfl
  rw [complete, ho]
  simp only [start_bind, hcap, start_pure]
  rcases (finishSession t.sessionId).start (e.keep (s.capture o.captured)) with ⟨r | r, e'⟩ <;> rfl

theorem get?_keep_capture (o : Outcome) :
    (e.keep (s.capture o.captured)).store.get? t.sessionId = some (s.capture o.captured) := by
  rw [Engine.get?_keep]
  exact if_pos (KeyedList.key_of_find? h)

/-- An active session is completed with what was captured. -/
theorem start_complete {o : Outcome} (ho : t.outcome = some o) (ha : s.isActive = true) :
    t.complete.start e =
      (.ok { t with
          isFinished := true
          prompt := closing (some t.node) ((s.capture o.captured).finishedAt e.now) },
        e.finished (s.capture o.captured)) := by
  have ha' : (s.capture o.captured).isActive = true := ha
  rw [start_complete_eq h ho, start_finishSession (get?_keep_capture h o) ha',
    Engine.finished_keep]
  rfl

/-- A session that is not active any more cannot be completed. -/
theorem start_complete_of_not_isActive {o : Outcome} (ho : t.outcome = some o)
    (ha : s.isActive = false) :
    t.complete.start e = (.error (.notActive t.sessionId s.status), e.keep (s.capture o.captured)) := by
  have ha' : (s.capture o.captured).isActive = false := ha
  rw [start_complete_eq h ho, start_finishSession_of_not_isActive (get?_keep_capture h o) ha']
  rfl

theorem start_reprompt :
    t.reprompt.start e =
      (.ok { t with
          error := some t.shownError
          prompt := Screen.render (some t.node) s.bindings (some t.shownError) },
        e.announce .errorOccurred s none
          [("error_message", .text t.shownError), ("input", .ofOption t.input)]) := by
  rw [reprompt, start_bind_of_ok (start_served_of_stored h)]
  rfl

theorem start_respond :
    t.respond.start e =
      (.ok { t with prompt := Screen.render (some t.node) s.bindings none }, e) := by
  rw [respond, start_bind_of_ok (start_served_of_stored h)]
  rfl

end Stored

/-! ### Sessions that are not stored -/

section Missing

variable (h : e.store.get? t.sessionId = none)

include h

theorem start_recordInput_of_missing :
    t.recordInput.start e = (.error (.store (.notStored t.sessionId)), e) := by
  rw [recordInput, start_bind_of_ok (start_get e)]
  dsimp only
  rw [start_bind_of_error (start_change_of_missing h _)]

theorem start_ask_of_missing : t.ask.start e = (.error (.store (.notStored t.sessionId)), e) := by
  rw [ask, start_bind_of_error (start_served_of_missing h)]

theorem start_hear_of_missing (pending : Option Pending) :
    (t.hear pending).start e = (.error (.store (.notStored t.sessionId)), e) := by
  rw [hear, start_bind_of_ok (start_get e), start_bind_of_error (start_served_of_missing h)]

theorem start_advance_of_missing {o : Outcome} {target : String} {n : Node}
    (ho : t.outcome = some o) (ht : o.target? = some target)
    (hn : t.flow.node? target = some n) :
    t.advance.start e = (.error (.store (.notStored t.sessionId)), e) := by
  have hnav : (navigate t.sessionId t.flow target).start e =
      (.error (.store (.notStored t.sessionId)), e) := by
    rw [navigate, start_bind_of_ok (start_nodeOf_of_some (by exact hn) e),
      start_bind_of_ok (start_get e)]
    rw [start_bind_of_error (start_change_of_missing h _)]
  rw [advance, ho]
  dsimp only
  rw [ht]
  dsimp only
  rw [start_bind_of_error hnav]

theorem start_complete_of_missing {o : Outcome} (ho : t.outcome = some o) :
    t.complete.start e = (.error (.store (.notStored t.sessionId)), e) := by
  rw [complete, ho]
  simp only [start_bind, start_change_of_missing h]

theorem start_reprompt_of_missing :
    t.reprompt.start e = (.error (.store (.notStored t.sessionId)), e) := by
  rw [reprompt, start_bind_of_error (start_served_of_missing h)]

theorem start_respond_of_missing :
    t.respond.start e = (.error (.store (.notStored t.sessionId)), e) := by
  rw [respond, start_bind_of_error (start_served_of_missing h)]

end Missing

/-! ### A whole interpretation -/

theorem interpret_congr_of_not_isAction {n : Node} (h : n.isAction = false)
    (bindings : Dict String) (input : String) (r r' : ActionResult) :
    n.interpret bindings input r = n.interpret bindings input r' := by
  obtain ⟨id, text, b⟩ := n
  cases b with
  | payment => cases h
  | api => cases h
  | _ => rfl

/-- An interpretation has the action of the node carried out, and its outcome is
what the node's handler makes of input and result. -/
theorem start_dispatch (h : e.store.get? t.sessionId = some s) (hr : e.replaced = []) :
    t.dispatch.start e =
      match t.node.interpret s.bindings t.givenInput (e.resultFor ⟨t.node, s⟩) with
      | .ok o => (.ok (t.heard o), e.acted t.node s)
      | .error err => (.error (.handler err), e.acted t.node s) := by
  rw [dispatch, Engine.acted]
  cases ha : t.node.isAction with
  | false =>
      rw [start_bind_of_ok (start_ask_of_not_isAction h hr ha), start_hear h hr none]
      dsimp only
      rw [ha, interpret_congr_of_not_isAction ha s.bindings t.givenInput _
        (e.resultFor ⟨t.node, s⟩)]
      rfl
  | true =>
      have hget : (e.requested t.node s).store.get? t.sessionId = some s := by
        rw [Engine.store_requested]
        exact h
      have hsame := e.sameService_requested s t.node
      rw [start_bind_of_ok (start_ask_of_isAction h hr ha),
        start_hear hget (hsame.replaced.trans hr)]
      have hresult : actionResult (e.requested t.node s)
          (if e.executor.isSome then some ⟨e.requests, ⟨t.node, s⟩⟩ else none) =
          e.resultFor ⟨t.node, s⟩ := by
        simp only [actionResult, Engine.resultFor, hsame.executor]
        cases e.executor <;> rfl
      have hasked : (if e.executor.isSome then
          some (⟨e.requests, ⟨t.node, s⟩⟩ : Pending) else none).isSome = e.executor.isSome := by
        cases e.executor <;> rfl
      simp only [hresult, hasked, ha, if_true]

theorem start_dispatch_of_missing (h : e.store.get? t.sessionId = none) :
    t.dispatch.start e = (.error (.store (.notStored t.sessionId)), e) := by
  rw [dispatch, start_bind_of_error (start_ask_of_missing h)]

end Turn

end UssdFlows
