import UssdFlows.Proofs.Engine.Programs

/-!
# What the pieces of an operation do

An operation of the engine is put together from pieces, each of which runs
inside a locked section.  This file says what each piece comes to.

The states that result have names: `Engine.opened` for a session that was
stored, `Engine.lapsed` for one that has expired, `Engine.terminated` for one
that was ended.  Entering and leaving sections, and counting, leave the engine
*alike* (`Engine.Alike`): the service, the sessions and the requests are the
same.  They are also done in silence (`Engine.Silent`): no event is published, and
neither sessions nor uses of flows are counted.
-/

namespace UssdFlows

/-- Whether a metric is about the lives of sessions. -/
def Metric.IsOfSessions : Metric → Prop
  | activeSessions | sessions _ => True
  | _ => False

/-- The session when it has expired. -/
def Session.expiredAt (s : Session) (now : Instant) : Session :=
  { s with status := .expired, lastActivityAt := now }

/-- The session when it was ended. -/
def Session.terminatedAt (s : Session) (reason : String) (now : Instant) : Session :=
  { s with status := .terminated, terminationReason := some reason, lastActivityAt := now }

namespace Engine

/-- Two states of the engine that differ in locks, counts and events at most. -/
structure Alike (e e' : Engine) : Prop where
  service : e.SameService e'
  store : e'.store = e.store
  requests : e'.requests = e.requests

theorem Alike.refl (e : Engine) : e.Alike e := ⟨.refl e, rfl, rfl⟩

theorem Alike.trans {e e' e'' : Engine} (h : e.Alike e') (h' : e'.Alike e'') : e.Alike e'' :=
  ⟨h.service.trans h'.service, h'.store.trans h.store, h'.requests.trans h.requests⟩

theorem alike_tally (e : Engine) (m : Metric) (n : Int) : e.Alike (e.tally m n) :=
  ⟨⟨rfl, rfl, rfl, rfl, rfl, rfl, rfl⟩, rfl, rfl⟩

theorem alike_locks (e : Engine) (locks : Locks) : e.Alike { e with locks } :=
  ⟨⟨rfl, rfl, rfl, rfl, rfl, rfl, rfl⟩, rfl, rfl⟩

/-- From one state to the other no event was published, and neither sessions nor
uses of flows were counted. -/
structure Silent (e e' : Engine) : Prop where
  sink : e'.sink = e.sink
  usage : e'.registry.usage = e.registry.usage
  counts : ∀ m : Metric, m.IsOfSessions → e'.metrics.count m = e.metrics.count m

theorem Silent.refl (e : Engine) : e.Silent e := ⟨rfl, rfl, fun _ _ => rfl⟩

theorem Silent.trans {e e' e'' : Engine} (h : e.Silent e') (h' : e'.Silent e'') : e.Silent e'' :=
  ⟨h'.sink.trans h.sink, h'.usage.trans h.usage,
    fun m hm => (h'.counts m hm).trans (h.counts m hm)⟩

theorem silent_tally (e : Engine) {m : Metric} (n : Int) (hm : ¬ m.IsOfSessions) :
    e.Silent (e.tally m n) := by
  refine ⟨rfl, rfl, fun k hk => ?_⟩
  have hne : m ≠ k := by
    rintro rfl
    exact hm hk
  simp [tally, Metrics.count_add, hne]

theorem silent_locks (e : Engine) (locks : Locks) : e.Silent { e with locks } :=
  ⟨rfl, rfl, fun _ _ => rfl⟩

/-- Two states that differ in locks and idle counts at most. -/
structure Calm (e e' : Engine) : Prop where
  alike : e.Alike e'
  silent : e.Silent e'

theorem Calm.refl (e : Engine) : e.Calm e := ⟨.refl e, .refl e⟩

theorem Calm.trans {e e' e'' : Engine} (h : e.Calm e') (h' : e'.Calm e'') : e.Calm e'' :=
  ⟨h.alike.trans h'.alike, h.silent.trans h'.silent⟩

theorem calm_tally (e : Engine) {m : Metric} (n : Int) (hm : ¬ m.IsOfSessions) :
    e.Calm (e.tally m n) := ⟨e.alike_tally m n, e.silent_tally n hm⟩

theorem calm_locks (e : Engine) (locks : Locks) : e.Calm { e with locks } :=
  ⟨e.alike_locks locks, e.silent_locks locks⟩

/-- The engine when a new session was stored. -/
def opened (e : Engine) (s : Session) : Engine :=
  (((e.keep s).tally .activeSessions 1).tally (.sessions .started) 1).announce .sessionStarted s none
    [("ussd_code", .text s.ussdCode), ("flow_version", .int s.flowVersion)]

/-- The engine when a session has expired at some time. -/
def lapsed (e : Engine) (s : Session) (now : Instant) : Engine :=
  let s' := s.expiredAt now
  (((e.keep s').tally .activeSessions (-1)).tally (.sessions .expired) 1).announce .sessionExpired
    s' none [("duration", .real (s'.duration (some now) e.now))]

/-- The engine when a session was ended. -/
def terminated (e : Engine) (s : Session) (reason : String) : Engine :=
  let s' := s.terminatedAt reason e.now
  (((e.keep s').tally .activeSessions (-1)).tally (.sessions .terminated) 1).announce
    .sessionTerminated s' none
    [("reason", .text reason), ("duration", .real (s'.duration (some e.now) e.now))]

variable (e : Engine) (s : Session)

theorem sameService_opened : e.SameService (e.opened s) := ⟨rfl, rfl, rfl, rfl, rfl, rfl, rfl⟩

theorem get?_opened (id : String) :
    (e.opened s).store.get? id = if s.id = id then some s else e.store.get? id :=
  e.get?_keep s id

theorem sameService_lapsed (now : Instant) : e.SameService (e.lapsed s now) :=
  ⟨rfl, rfl, rfl, rfl, rfl, rfl, rfl⟩

theorem sameService_terminated (reason : String) : e.SameService (e.terminated s reason) :=
  ⟨rfl, rfl, rfl, rfl, rfl, rfl, rfl⟩

end Engine

open EngineM

variable {α : Type} {e : Engine} {id : String} {s : Session}

/-! ## Sections -/

theorem start_enterLock (key : String) (v : Visitor) (e : Engine) :
    ∃ number e', (enterLock key v).start e = (.ok number, e') ∧ e.Alike e' :=
  ⟨_, _, rfl, e.alike_locks _⟩

theorem start_leaveLock (key : String) (number : Nat) (v : Visitor) (e : Engine) :
    ∃ e', (leaveLock key number v).start e = (.ok (), e') ∧ e.Alike e' :=
  ⟨_, rfl, e.alike_locks _⟩

theorem start_discard (key : String) (e : Engine) :
    ∃ e', (discard key).start e = (.ok (), e') ∧ e.Alike e' := ⟨_, rfl, e.alike_locks _⟩

/-- A program inside a section runs as it does outside. -/
theorem start_hold_calm (key : String) (body : EngineM α) (e : Engine) :
    ∃ e₁ e₂, e.Calm e₁ ∧ (body.start e₁).2.Calm e₂ ∧
      (hold key body).start e = ((body.start e₁).1, e₂) := by
  refine ⟨_, _, ?_, ?_, start_hold key body e⟩
  · exact e.calm_locks _
  · exact Engine.calm_locks _ _

/-! ## Flows -/

theorem start_examine (f : Flow) (e : Engine) :
    ∃ report e', (examine f).start e = (.ok report, e') ∧ e.Alike e' ∧
      ∃ limits, report = f.report limits :=
  ⟨_, _, rfl, e.alike_tally _ _, _, rfl⟩

/-- What the engine does with a flow that is to be published: the verdict is
counted, and a flow without errors is stored. -/
theorem start_publishFlow (f : Flow) (e : Engine) :
    (publishFlow f).start e =
      let limits := { Limits.standard with promptLength := e.settings.maxPromptLength }
      let e' := e.tally (.validations (f.report limits).isValid) 1
      if (f.report limits).isValid then
        (.ok (e.registry.publish f).1, { e' with registry := (e.registry.publish f).2 })
      else (.error (.invalidFlow (f.report limits)), e') := by
  have examined : (examine f).start e = (.ok _, _) := rfl
  rw [publishFlow, start_bind_of_ok examined]
  dsimp only
  split
  · rename_i invalid
    rw [if_neg (by simpa using invalid)]
    rfl
  · rename_i valid
    rw [if_pos (by simpa using valid)]
    rfl

theorem start_currentFlow_of_some {flowId : String} {f : Flow}
    (h : e.registry.get? flowId = some f) : (currentFlow flowId).start e = (.ok f, e) := by
  simp only [currentFlow, start_bind, start_get, h, start_ofOption_some]

theorem start_currentFlow_of_none {flowId : String} (h : e.registry.get? flowId = none) :
    (currentFlow flowId).start e = (.error (.flowNotFound flowId none), e) := by
  simp only [currentFlow, start_bind, start_get, h, start_ofOption_none]

/-! ## Starting sessions -/

/-- The section of a caller is not that of a session. -/
theorem Caller.key_ne_sessionId (c : Caller) (n : Nat) : c.key ≠ sessionId n := by
  intro h
  have hlist := congrArg String.toList h
  simp only [Caller.key, sessionId, String.toList_append] at hlist
  have hsecond := congrArg (fun cs : List Char => cs[1]?) hlist
  simp at hsecond

/-- A new session of a caller, as it is before it is stored. -/
def Session.newlyOpened (id : String) (f : Flow) (c : Caller) (now expiry : Instant) : Session where
  id := id
  flowId := f.id
  flowVersion := f.version
  phoneNumber := c.phoneNumber
  ussdCode := c.ussdCode
  status := .active
  currentNode := some f.startNode
  bindings := f.defaults
  history := []
  stepCount := 0
  startedAt := now
  lastActivityAt := now
  expiresAt := expiry
  completedAt := none
  terminationReason := none
  metadata := []

/-- The engine when a session id was used up. -/
def Engine.numbered (e : Engine) : Engine := { e with nextSession := e.nextSession + 1 }

theorem start_newSession (f : Flow) (c : Caller) (e : Engine) :
    (newSession f c).start e =
      match e.now.afterSeconds? e.settings.sessionTimeout with
      | some expiry => (.ok (.newlyOpened (sessionId e.nextSession) f c e.now expiry), e.numbered)
      | none => (.error .timeOutOfRange, e) := by
  simp only [newSession, takeSessionId, start_bind, start_get]
  cases e.now.afterSeconds? e.settings.sessionTimeout with
  | none => rfl
  | some expiry => rfl

/-- Inside the section of its caller a session is found, or made; without a time
of expiry neither. -/
theorem start_openSession {f : Flow} {n : Node} (hn : f.node? f.startNode = some n) (c : Caller)
    (e : Engine) :
    (∃ s, s ∈ e.store.sessions.items ∧ (openSession f c).start e = (.ok (.resumed s), e)) ∨
      (openSession f c).start e = (.error .timeOutOfRange, e) ∨
      ∃ expiry, (openSession f c).start e =
        (.ok (.opened (.newlyOpened (sessionId e.nextSession) f c e.now expiry)
          (.start (sessionId e.nextSession) f n none)), e.numbered) := by
  rw [openSession, start_bind_of_ok (start_get e)]
  cases hl : e.store.findLive? c.flowId c.phoneNumber c.ussdCode e.now with
  | some s => exact Or.inl ⟨s, List.mem_of_find?_eq_some hl, rfl⟩
  | none =>
      simp only [start_bind, start_newSession]
      cases e.now.afterSeconds? e.settings.sessionTimeout with
      | none => exact Or.inr (Or.inl rfl)
      | some expiry =>
          refine Or.inr (Or.inr ⟨expiry, ?_⟩)
          have hnode : (Session.newlyOpened (sessionId e.nextSession) f c e.now expiry).currentNode.bind
              f.node? = some n := hn
          simp only [start_nodeOf_of_some hnode, start_pure]
          rfl

theorem start_storeSession (s : Session) (e : Engine) :
    (storeSession s).start e = (.ok (), e.opened s) ∨
      (storeSession s).start e = (.error (.store (.alreadyStored s.id)), e) := by
  rw [storeSession, start_bind_of_ok (start_get e), SessionStore.create]
  by_cases h : e.store.sessions.contains s.id = true
  · rw [if_pos h]
    exact Or.inr rfl
  · rw [if_neg h]
    exact Or.inl rfl

/-! ## Taking inputs -/

theorem start_lapse (h : e.store.get? id = some s) (now : Instant) :
    (lapse id now).start e = (.ok (), e.lapsed s now) := by
  have hchange : (change id fun s => { s with status := .expired, lastActivityAt := now }).start e =
      (.ok (s.expiredAt now), e.keep (s.expiredAt now)) := start_change_of_stored h rfl
  rw [lapse, start_bind_of_ok hchange]
  rfl

theorem start_admission_of_missing (h : e.store.get? id = none) (input : String) :
    (admission id input).start e = (.error (.sessionNotFound id), e) := by
  rw [admission, start_bind_of_error (start_session_of_missing h)]

theorem start_admission_of_not_isActive (h : e.store.get? id = some s) (ha : s.isActive = false)
    (input : String) : (admission id input).start e = (.ok (.rejected s.status), e) := by
  rw [admission, start_bind_of_ok (start_session_of_stored h), start_bind_of_ok (start_get e), ha]
  rfl

theorem start_admission_of_isPastExpiry (h : e.store.get? id = some s) (ha : s.isActive = true)
    (hx : s.isPastExpiry e.now = true) (input : String) :
    (admission id input).start e = (.ok .lapsed, e.lapsed s e.now) := by
  rw [admission, start_bind_of_ok (start_session_of_stored h), start_bind_of_ok (start_get e), ha, hx]
  simp only [Bool.not_true, Bool.false_eq_true, if_false, if_true, start_bind, start_pure,
    start_lapse h]

/-- A live session is served from where it rests. -/
theorem start_admission_of_live {f : Flow} {n : Node} (h : e.store.get? id = some s)
    (ha : s.isActive = true) (hx : s.isPastExpiry e.now = false)
    (hf : e.registry.version? s.flowId s.flowVersion = some f)
    (hn : s.currentNode.bind f.node? = some n) (input : String) :
    (admission id input).start e = (.ok (.admitted (.start id f n (some input))), e) := by
  rw [admission, start_bind_of_ok (start_session_of_stored h), start_bind_of_ok (start_get e), ha, hx]
  simp only [Bool.not_true, Bool.false_eq_true, if_false, start_bind, start_pure,
    start_flowOf_of_stored hf, start_nodeOf_of_some hn]

theorem start_navigationOf {t : Turn} (h : e.store.get? t.sessionId = some s) :
    (navigationOf t).start e =
      (.ok ⟨t.sessionId, t.prompt, t.isFinished, t.error, s.status, s.currentNode⟩, e) := by
  rw [navigationOf, servedBy, start_bind_of_ok (start_served_of_stored h)]
  rfl

theorem start_navigationOf_of_missing {t : Turn} (h : e.store.get? t.sessionId = none) :
    (navigationOf t).start e = (.error (.store (.notStored t.sessionId)), e) := by
  rw [navigationOf, servedBy, start_bind_of_error (start_served_of_missing h)]

/-- What an answer comes to once the section is left. -/
def concluded (id : String) : Except EngineError Answered → Except EngineError Navigation
  | .ok (.inl result) => .ok result
  | .ok (.inr (_, status)) => .error (.notActive id status)
  | .error err => .error err

/-- The locks that are forgotten once an input has been handled. -/
def forgotten (id : String) (r : Except EngineError Answered) : List String :=
  if outcomeOf r = .completed || outcomeOf r = .expired then [id] else []

/-- Counting an answer does not change it. -/
theorem start_concludeInput (id : String) (r : Except EngineError Answered) (e : Engine) :
    ∃ e', (concludeInput id r).start e = (concluded id r, e') ∧ e.Alike e' ∧
      e'.locks = (forgotten id r).foldl Locks.discard e.locks := by
  have hcount := (e.alike_tally (.inputs (outcomeOf r)) 1).trans (Engine.alike_tally _ .inputTimes 1)
  rw [concludeInput, start_bind_of_ok (start_count ..), start_bind_of_ok (start_count ..), forgotten]
  by_cases hd : outcomeOf r = .completed || outcomeOf r = .expired
  · rw [if_pos hd, if_pos hd]
    refine ⟨_, ?_, hcount.trans (Engine.alike_locks _ _), rfl⟩
    rcases r with err | result | ⟨outcome, status⟩ <;> rfl
  · rw [if_neg hd, if_neg hd]
    refine ⟨_, ?_, hcount, rfl⟩
    rcases r with err | result | ⟨outcome, status⟩ <;> rfl

/-- An answer is counted in silence. -/
theorem silent_concludeInput (id : String) (r : Except EngineError Answered) (e : Engine) :
    e.Silent ((concludeInput id r).start e).2 := by
  have hcount := (e.silent_tally (m := .inputs (outcomeOf r)) 1 (fun hm => hm)).trans
    (Engine.silent_tally _ (m := .inputTimes) 1 fun hm => hm)
  rw [concludeInput, start_bind_of_ok (start_count ..), start_bind_of_ok (start_count ..)]
  by_cases hd : outcomeOf r = .completed || outcomeOf r = .expired
  · rw [if_pos hd]
    rcases r with err | result | ⟨outcome, status⟩ <;>
      exact hcount.trans (Engine.silent_locks _ _)
  · rw [if_neg hd]
    rcases r with err | result | ⟨outcome, status⟩ <;> exact hcount

/-! ## Ending sessions -/

theorem start_endSession_of_isActive (hget : e.store.get? id = some s) (ha : s.isActive = true)
    (reason : String) : (endSession id reason).start e =
      (.ok (s.terminatedAt reason e.now), e.terminated s reason) := by
  have hchange : (change id fun s => { s with
      status := .terminated, terminationReason := some reason, lastActivityAt := e.now }).start e =
      (.ok (s.terminatedAt reason e.now), e.keep (s.terminatedAt reason e.now)) :=
    start_change_of_stored hget rfl
  rw [endSession, start_bind_of_ok (start_session_of_stored hget), ha]
  simp only [Bool.not_true, Bool.false_eq_true, if_false, start_bind, start_pure, start_get, hchange]
  rfl

theorem start_endSession_of_not_isActive (hget : e.store.get? id = some s)
    (ha : s.isActive = false) (reason : String) :
    (endSession id reason).start e = (.error (.notActive id s.status), e) := by
  rw [endSession, start_bind_of_ok (start_session_of_stored hget), ha]
  rfl

theorem start_endSession (id reason : String) (e : Engine) :
    (∃ err, (endSession id reason).start e = (.error err, e) ∧
        (err = .sessionNotFound id ∨ ∃ status, err = .notActive id status)) ∨
      ∃ s, e.store.get? id = some s ∧
        (endSession id reason).start e =
          (.ok (s.terminatedAt reason e.now), e.terminated s reason) := by
  cases hget : e.store.get? id with
  | none =>
      refine Or.inl ⟨_, ?_, Or.inl rfl⟩
      rw [endSession, start_bind_of_error (start_session_of_missing hget)]
  | some s =>
      cases ha : s.isActive with
      | false =>
          exact Or.inl ⟨_, start_endSession_of_not_isActive hget ha reason, Or.inr ⟨s.status, rfl⟩⟩
      | true => exact Or.inr ⟨s, rfl, start_endSession_of_isActive hget ha reason⟩

theorem start_lapseIfDue (id : String) (now : Instant) (e : Engine) :
    (lapseIfDue id now).start e = (.ok false, e) ∨
      ∃ s, e.store.get? id = some s ∧ (lapseIfDue id now).start e = (.ok true, e.lapsed s now) := by
  rw [lapseIfDue, start_bind_of_ok (start_get e)]
  cases hget : e.store.get? id with
  | none => exact Or.inl rfl
  | some s =>
      by_cases hdue : (s.isActive && s.isPastExpiry now) = true
      · refine Or.inr ⟨s, rfl, ?_⟩
        simp only [hdue, if_true, start_bind, start_lapse hget, start_pure]
      · refine Or.inl ?_
        simp only [if_neg hdue, start_pure]

/-! ## What opening and admitting come to -/

/-- A session is made for a caller who has no live one, and expires after the time
that the settings give it. -/
theorem openSession_made {f : Flow} {c : Caller} {t : Turn} {e₁ : Engine}
    (h : (openSession f c).start e = (.ok (.opened s t), e₁)) :
    e.store.findLive? c.flowId c.phoneNumber c.ussdCode e.now = none ∧ e₁ = e.numbered ∧
      ∃ expiry n, e.now.afterSeconds? e.settings.sessionTimeout = some expiry ∧
        s = .newlyOpened (sessionId e.nextSession) f c e.now expiry ∧
        f.node? f.startNode = some n ∧ t = .start s.id f n none := by
  rw [openSession, start_bind_of_ok (start_get e)] at h
  cases hl : e.store.findLive? c.flowId c.phoneNumber c.ussdCode e.now with
  | some s' =>
      rw [hl] at h
      cases h
  | none =>
      rw [hl] at h
      dsimp only at h
      rw [start_bind, start_newSession] at h
      cases hx : e.now.afterSeconds? e.settings.sessionTimeout with
      | none =>
          rw [hx] at h
          cases h
      | some expiry =>
          rw [hx] at h
          dsimp only at h
          cases hn : f.node? f.startNode with
          | none =>
              rw [nodeOf, show (Session.newlyOpened (sessionId e.nextSession) f c e.now
                expiry).currentNode.bind f.node? = none from hn] at h
              cases h
          | some n =>
              rw [nodeOf, show (Session.newlyOpened (sessionId e.nextSession) f c e.now
                expiry).currentNode.bind f.node? = some n from hn] at h
              cases h
              exact ⟨rfl, rfl, expiry, n, rfl, rfl, rfl, rfl⟩

/-- A session is opened for a caller who has no live one. -/
theorem openSession_opened {f : Flow} {c : Caller} {t : Turn} {e₁ : Engine}
    (h : (openSession f c).start e = (.ok (.opened s t), e₁)) :
    e.store.findLive? c.flowId c.phoneNumber c.ussdCode e.now = none ∧ e₁ = e.numbered ∧
      ∃ expiry n, s = .newlyOpened (sessionId e.nextSession) f c e.now expiry ∧
        f.node? f.startNode = some n ∧ t = .start s.id f n none := by
  obtain ⟨hnone, he, expiry, n, -, hs, hn, ht⟩ := openSession_made h
  exact ⟨hnone, he, expiry, n, hs, hn, ht⟩

/-- Looking for a session stores nothing. -/
theorem openSession_cases {f : Flow} {c : Caller} {r : Except EngineError Opening} {e₁ : Engine}
    (h : (openSession f c).start e = (r, e₁)) : e₁ = e ∨ e₁ = e.numbered := by
  rw [openSession, start_bind_of_ok (start_get e)] at h
  cases hl : e.store.findLive? c.flowId c.phoneNumber c.ussdCode e.now with
  | some s' =>
      rw [hl] at h
      cases h
      exact Or.inl rfl
  | none =>
      rw [hl] at h
      dsimp only at h
      rw [start_bind, start_newSession] at h
      cases hx : e.now.afterSeconds? e.settings.sessionTimeout with
      | none =>
          rw [hx] at h
          cases h
          exact Or.inl rfl
      | some expiry =>
          rw [hx] at h
          dsimp only at h
          refine Or.inr ?_
          rw [start_bind, nodeOf] at h
          cases hn : (Session.newlyOpened (sessionId e.nextSession) f c e.now
            expiry).currentNode.bind f.node? with
          | none =>
              rw [hn] at h
              cases h
              rfl
          | some n =>
              rw [hn] at h
              cases h
              rfl

/-- An input is admitted to a session that is live, from where it rests. -/
theorem admission_admitted {text : String} {t : Turn} {e' : Engine}
    (h : (admission id text).start e = (.ok (.admitted t), e')) :
    e' = e ∧ ∃ s f n, e.store.get? id = some s ∧ s.isLive e.now = true ∧
      e.registry.version? s.flowId s.flowVersion = some f ∧
      s.currentNode.bind f.node? = some n ∧ t = .start id f n (some text) := by
  cases hget : e.store.get? id with
  | none =>
      rw [start_admission_of_missing hget] at h
      cases h
  | some s =>
      cases ha : s.isActive with
      | false =>
          rw [start_admission_of_not_isActive hget ha] at h
          cases h
      | true =>
          cases hx : s.isPastExpiry e.now with
          | true =>
              rw [start_admission_of_isPastExpiry hget ha hx] at h
              cases h
          | false =>
              cases hf : e.registry.version? s.flowId s.flowVersion with
              | none =>
                  rw [admission, start_bind_of_ok (start_session_of_stored hget),
                    start_bind_of_ok (start_get e), ha, hx] at h
                  simp only [Bool.not_true, Bool.false_eq_true, if_false, start_bind, flowOf,
                    start_get, hf, start_ofOption_none] at h
                  cases h
              | some f =>
                  cases hn : s.currentNode.bind f.node? with
                  | none =>
                      rw [admission, start_bind_of_ok (start_session_of_stored hget),
                        start_bind_of_ok (start_get e), ha, hx] at h
                      simp only [Bool.not_true, Bool.false_eq_true, if_false, start_bind,
                        start_flowOf_of_stored hf, nodeOf, hn, start_ofOption_none] at h
                      cases h
                  | some n =>
                      rw [start_admission_of_live hget ha hx hf hn] at h
                      cases h
                      refine ⟨rfl, s, f, n, rfl, ?_, hf, hn, rfl⟩
                      rw [Session.isLive, ha, hx]
                      rfl

end UssdFlows
