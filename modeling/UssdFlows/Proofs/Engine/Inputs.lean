import UssdFlows.Proofs.Engine.Operations

/-!
# What an input to a live session does

A session *awaits* an input (`Engine.Awaits`) if it is stored and live, and its
flow and its node are there.  An input to it is recorded, and the node
interprets it, with the result of its action if it has one.  If the node
refuses, the operation fails and the session stays where it is; otherwise the
rest of the turn is smooth and the operation succeeds (`processInput_ok_iff`).
Only if the time of the session cannot be renewed is the node not asked.
-/

namespace UssdFlows

open EngineM

/-- The session when an input was recorded and its time renewed. -/
def Session.receivedAt (s : Session) (input : String) (now expiry : Instant) : Session :=
  (s.record input now).expiringAt expiry

/-- The node where a session rests. -/
def Engine.nodeAt? (e : Engine) (s : Session) : Option Node :=
  (e.registry.version? s.flowId s.flowVersion).bind fun f => s.currentNode.bind f.node?

/-- A session is ready for an input at a node of its flow. -/
structure Engine.Awaits (e : Engine) (id : String) (s : Session) (f : Flow) (n : Node) :
    Prop where
  stored : e.store.get? id = some s
  active : s.isActive = true
  inTime : s.isPastExpiry e.now = false
  pinned : e.registry.version? s.flowId s.flowVersion = some f
  node : s.currentNode.bind f.node? = some n

/-- The result that a node is given when it interprets an input of a session. -/
def Engine.resultAt (e : Engine) (s : Session) (n : Node) (input : String) (expiry : Instant) :
    ActionResult :=
  e.resultFor ⟨n, s.receivedAt input e.now expiry⟩

/-- A session whose time was renewed is in time. -/
theorem Session.isPastExpiry_receivedAt (s : Session) (input : String) {now expiry : Instant}
    {seconds : Int} (hpos : 0 < seconds) (h : now.afterSeconds? seconds = some expiry) :
    (s.receivedAt input now expiry).isPastExpiry now = false := by
  have hsince : expiry.since now = seconds * 1000000 := Instant.since_of_shift? h
  rw [Instant.since] at hsince
  show decide (expiry.micros < now.micros) = false
  rw [decide_eq_false_iff_not]
  omega

variable {L : Ledger} {others : String → Prop} {e e' : Engine} {id : String} {s : Session}
  {f : Flow} {n : Node} {expiry : Instant}

namespace Engine

theorem Alike.awaits (h : e.Alike e') (ha : e.Awaits id s f n) : e'.Awaits id s f n where
  stored := h.store ▸ ha.stored
  active := ha.active
  inTime := h.service.now ▸ ha.inTime
  pinned := (h.service.version? _ _).trans ha.pinned
  node := ha.node

theorem Awaits.nodeAt? (ha : e.Awaits id s f n) : e.nodeAt? s = some n := by
  rw [Engine.nodeAt?, ha.pinned]
  exact ha.node

theorem Awaits.sameId (ha : e.Awaits id s f n) : s.id = id := KeyedList.key_of_find? ha.stored

theorem Awaits.resting (ha : e.Awaits id s f n) : s.currentNode = some n.id := by
  obtain ⟨node, hnode, hn⟩ := Option.bind_eq_some_iff.1 ha.node
  rw [hnode, KeyedList.key_of_find? hn]

/-- The node that awaits an input is one of its flow. -/
theorem Awaits.found (ha : e.Awaits id s f n) : f.node? n.id = some n := by
  have hnode := ha.node
  rw [ha.resting] at hnode
  exact hnode

/-- The node that awaits an input is the one where the session rests. -/
theorem Awaits.node_eq {m : Node} {nodeId : String} (ha : e.Awaits id s f n)
    (hnode : s.currentNode = some nodeId) (hm : f.node? nodeId = some m) : n = m := by
  have hn := ha.node
  rw [hnode, Option.bind_some, hm, Option.some.injEq] at hn
  exact hn.symm

theorem Alike.resultAt (h : e.Alike e') (s : Session) (n : Node) (input : String)
    (expiry : Instant) : e'.resultAt s n input expiry = e.resultAt s n input expiry := by
  simp only [Engine.resultAt, resultFor, h.service.executor, h.requests, h.service.now]

theorem SameService.renewal (h : e.SameService e') :
    e'.now.afterSeconds? e'.settings.sessionTimeout =
      e.now.afterSeconds? e.settings.sessionTimeout := by
  rw [h.now, h.settings]

/-- A live session of a sound engine awaits an input. -/
theorem Sound.awaits (h : e.Sound L others) (hget : e.store.get? id = some s)
    (hlive : s.isLive e.now = true) : ∃ n, e.Awaits id s (L.pin id) n := by
  rw [Session.isLive, Bool.and_eq_true, Bool.not_eq_true'] at hlive
  obtain ⟨n, hn, -⟩ := fits_admitted h hget hlive.1 ""
  exact ⟨n, hget, hlive.1, hlive.2, (h.stored hget).2.2.2, hn⟩

end Engine

/-! ## The turn of an input -/

/-- The turn that an input starts. -/
def Turn.ofInput (id : String) (f : Flow) (n : Node) (input : String) : Turn :=
  .start id f n (some input)

namespace Turn

/-- There is room for the recording, the interpretation, and what follows. -/
theorem stageLimit_eq (f : Flow) : stageLimit f = stageLimit f - 2 + 1 + 1 := by
  have h : 25 ≤ stageLimit f := Nat.le_max_left ..
  omega

theorem start_recordInput_ofInput (ha : e.Awaits id s f n)
    (htime : e.now.afterSeconds? e.settings.sessionTimeout = some expiry) (input : String) :
    ((ofInput id f n input).perform .recordInput).start e =
      (.ok (ofInput id f n input), e.received (s.receivedAt input e.now expiry) input) := by
  have hreceived : s.received? input e.now e.settings.sessionTimeout =
      some (s.receivedAt input e.now expiry) := by
    rw [Session.received?, Session.renew?, htime]
    rfl
  have hstart := start_recordInput (t := ofInput id f n input) ha.stored
  rw [show (ofInput id f n input).input.getD "" = input from rfl, hreceived] at hstart
  exact hstart

/-- The node interprets the input of the session as it was recorded. -/
theorem start_dispatch_ofInput (ha : e.Awaits id s f n) (hr : e.replaced = []) (input : String)
    (expiry : Instant) :
    (ofInput id f n input).dispatch.start (e.received (s.receivedAt input e.now expiry) input) =
      match n.interpret s.bindings input (e.resultAt s n input expiry) with
      | .ok o => (.ok ((ofInput id f n input).heard o),
          (e.received (s.receivedAt input e.now expiry) input).acted n
            (s.receivedAt input e.now expiry))
      | .error err => (.error (.handler err),
          (e.received (s.receivedAt input e.now expiry) input).acted n
            (s.receivedAt input e.now expiry)) := by
  have hget : (e.received (s.receivedAt input e.now expiry) input).store.get?
      (ofInput id f n input).sessionId = some (s.receivedAt input e.now expiry) := by
    rw [Engine.store_received, Engine.get?_keep]
    exact if_pos ha.sameId
  exact start_dispatch hget hr

/-- **Inputs.**  The turn of an input records it, has it interpreted, and goes on
from what came out. -/
theorem start_play_ofInput (ha : e.Awaits id s f n) (hr : e.replaced = [])
    (htime : e.now.afterSeconds? e.settings.sessionTimeout = some expiry) (input : String) :
    (ofInput id f n input).play.start e =
      match n.interpret s.bindings input (e.resultAt s n input expiry) with
      | .ok o =>
        (run (stageLimit f - 2) ((ofInput id f n input).heard o).afterDispatch
          ((ofInput id f n input).heard o)).start
            ((e.received (s.receivedAt input e.now expiry) input).acted n
              (s.receivedAt input e.now expiry))
      | .error err =>
        (.error (.handler err), (e.received (s.receivedAt input e.now expiry) input).acted n
          (s.receivedAt input e.now expiry)) := by
  have hentry : (ofInput id f n input).entry = .recordInput := rfl
  have hdispatch := start_dispatch_ofInput ha hr input expiry
  rw [play, hentry, show (ofInput id f n input).flow = f from rfl, stageLimit_eq f]
  rw [show run (stageLimit f - 2 + 1 + 1) .recordInput (ofInput id f n input) =
    (do
      let t ← (ofInput id f n input).perform .recordInput
      run (stageLimit f - 2 + 1) .dispatch t) from rfl,
    start_bind_of_ok (start_recordInput_ofInput ha htime input)]
  rw [show run (stageLimit f - 2 + 1) .dispatch (ofInput id f n input) =
    (do
      let t ← (ofInput id f n input).dispatch
      run (stageLimit f - 2) t.afterDispatch t) from rfl]
  cases ho : n.interpret s.bindings input (e.resultAt s n input expiry) with
  | ok o =>
      rw [ho] at hdispatch
      exact start_bind_of_ok hdispatch
  | error err =>
      rw [ho] at hdispatch
      exact start_bind_of_error hdispatch

/-- If the time of the session cannot be renewed the turn fails at once. -/
theorem start_play_ofInput_of_late (hget : e.store.get? id = some s)
    (htime : e.now.afterSeconds? e.settings.sessionTimeout = none) (input : String) :
    (ofInput id f n input).play.start e =
      (.error .timeOutOfRange, e.keep (s.record input e.now)) := by
  have hreceived : s.received? input e.now e.settings.sessionTimeout = none := by
    rw [Session.received?, Session.renew?, htime]
    rfl
  have hrecord := start_recordInput (t := ofInput id f n input) hget
  rw [show (ofInput id f n input).input.getD "" = input from rfl, hreceived] at hrecord
  have hentry : (ofInput id f n input).entry = .recordInput := rfl
  rw [play, hentry, show (ofInput id f n input).flow = f from rfl, stageLimit_eq f, run]
  exact start_bind_of_error hrecord

/-- Whatever came out, the turn is ready for what comes next. -/
theorem ready_heard (h : e.Sound L others) (ha : e.Awaits id s (L.pin id) n)
    {input : String} {o : Outcome}
    (ho : n.interpret s.bindings input (e.resultAt s n input expiry) = .ok o) :
    ((ofInput id (L.pin id) n input).heard o).Ready L others (stageLimit (L.pin id) - 1)
      ((e.received (s.receivedAt input e.now expiry) input).acted n (s.receivedAt input e.now expiry))
      (some ((ofInput id (L.pin id) n input).heard o).afterDispatch) := by
  obtain ⟨n', hn, hfits⟩ := fits_admitted h ha.stored ha.active input
  rw [ha.node, Option.some.injEq] at hn
  subst hn
  have hno : ¬ (ofInput id (L.pin id) n input).Carries .recordInput :=
    not_carries_of_ne (by decide) (by decide) (by decide)
  have hplaced : (s.receivedAt input e.now expiry).Placed L others e :=
    (h.placed id s ha.stored).congr rfl rfl rfl rfl fun hact => ⟨hact, fun hm => hm⟩
  have hreceived : (e.received (s.receivedAt input e.now expiry) input).Sound L others :=
    (h.keep hplaced fun _ _ hm => hm).of_same
      ((e.sameService_keep _).symm.trans (e.sameService_received _ input)) rfl
  have hacted : ((e.received (s.receivedAt input e.now expiry) input).acted n
      (s.receivedAt input e.now expiry)).Sound L others :=
    hreceived.of_same (Engine.sameService_acted ..) (Engine.store_acted ..)
  have hfits' : (ofInput id (L.pin id) n input).Fits L e.nextSession .dispatch :=
    ⟨hfits.issued, hfits.flow, hfits.wellFormed, hfits.node, hfits.beyond, nofun, nofun⟩
  have hnext : ((e.received (s.receivedAt input e.now expiry) input).acted n
      (s.receivedAt input e.now expiry)).nextSession = e.nextSession :=
    (Engine.sameService_acted ..).nextSession
  obtain ⟨-, hsound, hfits'', hcost⟩ := leaves_heard (t := ofInput id (L.pin id) n input)
    (hacted.mono fun _ hm => Or.inl hm) (hnext ▸ hfits') ho
  have hlimit : (ofInput id (L.pin id) n input).cost .recordInput ≤ stageLimit (L.pin id) :=
    hfits.cost_le_stageLimit
  have hdispatch : (ofInput id (L.pin id) n input).cost .dispatch =
    2 * (L.pin id).rank n.id + 2 := rfl
  have hrecord : (ofInput id (L.pin id) n input).cost .recordInput =
    2 * (L.pin id).rank n.id + 3 := rfl
  exact ⟨hsound, hfits'', by omega⟩

/-- What is done for an input inside the section of its session. -/
def shown (t : Turn) : EngineM Navigation := do navigationOf (← t.play)

theorem start_shown_of_ok {t t' : Turn} (h : t.play.start e = (.ok t', e'))
    (hget : e'.store.get? t'.sessionId = some s) :
    ∃ result, t.shown.start e = (.ok result, e') :=
  ⟨_, (start_bind_of_ok h).trans (start_navigationOf hget)⟩

/-- Showing the session leaves the engine as the turn has left it. -/
theorem start_shown_state (t : Turn) (e : Engine) :
    (t.shown.start e).2 = (t.play.start e).2 := by
  cases hp : t.play.start e with
  | mk r e' =>
      cases r with
      | error err => rw [shown, start_bind_of_error hp]
      | ok t' =>
          rw [shown, start_bind_of_ok hp]
          cases hget : e'.store.get? t'.sessionId with
          | none => rw [start_navigationOf_of_missing hget]
          | some s => rw [start_navigationOf hget]

end Turn

/-! ## The whole operation -/

/-- What is answered inside the section is what the operation comes to. -/
theorem start_processInput_calm (id input : String) (e : Engine) :
    ∃ e₁ e₂, e.Calm e₁ ∧ ((answerInput id input).start e₁).2.Calm e₂ ∧
      (processInput id input).start e = (concluded id ((answerInput id input).start e₁).1, e₂) := by
  obtain ⟨e₁, e₂, h₁, h₂, hhold⟩ := start_hold_calm id (answerInput id input) e
  obtain ⟨e₃, hconclude, h₃, -⟩ := start_concludeInput id ((answerInput id input).start e₁).1 e₂
  have hsilent := silent_concludeInput id ((answerInput id input).start e₁).1 e₂
  rw [hconclude] at hsilent
  refine ⟨e₁, e₃, h₁, h₂.trans ⟨h₃, hsilent⟩, ?_⟩
  rw [processInput, start_bind_of_ok (start_attempt ..), hhold, hconclude]

/-- An input to a session that is not active is rejected. -/
theorem start_processInput_of_over (hget : e.store.get? id = some s) (ha : s.isActive = false)
    (input : String) :
    ∃ e', (processInput id input).start e = (.error (.notActive id s.status), e') ∧ e.Calm e' := by
  obtain ⟨e₁, e₂, h₁, h₂, hstart⟩ := start_processInput_calm id input e
  have hanswer : (answerInput id input).start e₁ = (.ok (.inr (.rejected, s.status)), e₁) := by
    have hget₁ : e₁.store.get? id = some s := h₁.alike.store ▸ hget
    rw [answerInput, start_bind_of_ok (start_admission_of_not_isActive hget₁ ha input)]
    rfl
  rw [hanswer] at hstart h₂
  exact ⟨e₂, hstart, h₁.trans h₂⟩

/-- An input to an active session that is past its expiry is rejected, and the session
expires. -/
theorem start_processInput_of_lapsed (hget : e.store.get? id = some s) (ha : s.isActive = true)
    (hx : s.isPastExpiry e.now = true) (input : String) :
    ∃ e₁ e', e.Calm e₁ ∧ (e₁.lapsed s e.now).Calm e' ∧
      (processInput id input).start e = (.error (.notActive id .expired), e') := by
  obtain ⟨e₁, e₂, h₁, h₂, hstart⟩ := start_processInput_calm id input e
  have hnow : e₁.now = e.now := h₁.alike.service.now
  have hanswer : (answerInput id input).start e₁ =
      (.ok (.inr (.expired, .expired)), e₁.lapsed s e.now) := by
    have hget₁ : e₁.store.get? id = some s := h₁.alike.store ▸ hget
    rw [answerInput, start_bind_of_ok (start_admission_of_isPastExpiry hget₁ ha (hnow ▸ hx) input),
      hnow]
    rfl
  rw [hanswer] at hstart h₂
  exact ⟨e₁, e₂, h₁, h₂, hstart⟩

/-- Inside its section a session that awaits an input has its turn played. -/
theorem start_answerInput_of_awaits (ha : e.Awaits id s f n) (input : String) :
    (answerInput id input).start e =
      match (Turn.ofInput id f n input).shown.start e with
      | (.ok result, e') => (.ok (.inl result), e')
      | (.error err, e') => (.error err, e') := by
  have hadmitted := start_admission_of_live ha.stored ha.active ha.inTime ha.pinned ha.node input
  rw [answerInput, start_bind_of_ok hadmitted]
  simp only [Turn.shown, Turn.ofInput, start_bind]
  cases (Turn.start id f n (some input)).play.start e with
  | mk r e' =>
      cases r with
      | error err => rfl
      | ok t =>
          dsimp only
          cases (navigationOf t).start e' with
          | mk r e'' => cases r <;> rfl

/-- It leaves the engine as that turn does. -/
theorem start_answerInput_state (ha : e.Awaits id s f n) (input : String) :
    ((answerInput id input).start e).2 = ((Turn.ofInput id f n input).play.start e).2 := by
  rw [start_answerInput_of_awaits ha, ← Turn.start_shown_state]
  cases (Turn.ofInput id f n input).shown.start e with
  | mk r e' => cases r <;> rfl

/-- An input to a session that awaits it starts a turn, and succeeds or fails as
that turn does. -/
theorem start_processInput_of_awaits (ha : e.Awaits id s f n) (input : String) :
    ∃ e₁ e₂, e.Calm e₁ ∧ ((Turn.ofInput id f n input).shown.start e₁).2.Calm e₂ ∧
      (processInput id input).start e =
        (((Turn.ofInput id f n input).shown.start e₁).1, e₂) := by
  obtain ⟨e₁, e₂, h₁, h₂, hstart⟩ := start_processInput_calm id input e
  have ha₁ := h₁.alike.awaits ha
  rw [start_answerInput_state ha₁, ← Turn.start_shown_state] at h₂
  refine ⟨e₁, e₂, h₁, h₂, ?_⟩
  rw [hstart, start_answerInput_of_awaits ha₁]
  cases (Turn.ofInput id f n input).shown.start e₁ with
  | mk r e' => cases r <;> rfl

/-- If the time of the session cannot be renewed the input is recorded, and that
is all. -/
theorem processInput_of_late (ha : e.Awaits id s f n)
    (htime : e.now.afterSeconds? e.settings.sessionTimeout = none) (input : String) :
    (e.keep (s.record input e.now)).Alike ((processInput id input).start e).2 := by
  obtain ⟨e₁, e₂, ⟨h₁, -⟩, ⟨h₂, -⟩, hstart⟩ := start_processInput_of_awaits ha input
  have hplay := Turn.start_play_ofInput_of_late (f := f) (n := n) (h₁.awaits ha).stored
    (h₁.service.renewal.trans htime) input
  rw [Turn.start_shown_state, hplay, h₁.service.now] at h₂
  have hkept : (e.keep (s.record input e.now)).Alike (e₁.keep (s.record input e.now)) :=
    ⟨((e.sameService_keep _).symm.trans h₁.service).trans (e₁.sameService_keep _),
      by rw [Engine.keep, Engine.keep, h₁.store], h₁.requests⟩
  rw [hstart]
  exact hkept.trans h₂

/-- If the time of the session cannot be renewed nothing is asked. -/
theorem requests_processInput_of_late (ha : e.Awaits id s f n)
    (htime : e.now.afterSeconds? e.settings.sessionTimeout = none) (input : String) :
    ((processInput id input).start e).2.requests = e.requests :=
  (processInput_of_late ha htime input).requests

/-- **Inputs.**  An input to a live session is either refused by the node where the
session rests, which then stays there, or it is answered. -/
theorem processInput_cases (h : e.Sound L others) (ha : e.Awaits id s (L.pin id) n)
    (htime : e.now.afterSeconds? e.settings.sessionTimeout = some expiry) (input : String) :
    (n.Refuses input (e.resultAt s n input expiry) ∧
        ∃ err e', (processInput id input).start e = (.error (.handler err), e') ∧
          e.SameService e' ∧ e'.store = (e.keep (s.receivedAt input e.now expiry)).store ∧
          e'.requests = (e.acted n (s.receivedAt input e.now expiry)).requests) ∨
      (¬ n.Refuses input (e.resultAt s n input expiry) ∧
        ∃ result e', (processInput id input).start e = (.ok result, e') ∧
          e'.requests = (e.acted n (s.receivedAt input e.now expiry)).requests) := by
  obtain ⟨e₁, e₂, ⟨h₁, -⟩, ⟨h₂, -⟩, hstart⟩ := start_processInput_of_awaits ha input
  have hsound := h₁.sound h
  have ha₁ := h₁.awaits ha
  have hnow : e₁.now = e.now := h₁.service.now
  have hplay := Turn.start_play_ofInput ha₁ hsound.replaced (h₁.service.renewal.trans htime) input
  have hready := fun o (ho : n.interpret s.bindings input (e₁.resultAt s n input expiry) = .ok o) =>
    Turn.ready_heard hsound ha₁ ho
  rw [h₁.resultAt, hnow] at hplay hready
  rw [Turn.start_shown_state] at h₂
  generalize hs' : s.receivedAt input e.now expiry = s' at hplay hready ⊢
  have hsame : e.SameService ((e₁.received s' input).acted n s') :=
    (h₁.service.trans (e₁.sameService_received s' input)).trans (Engine.sameService_acted ..)
  have hstore : ((e₁.received s' input).acted n s').store = (e.keep s').store := by
    rw [Engine.store_acted, Engine.store_received, Engine.keep, Engine.keep, h₁.store]
  have hrequests : ((e₁.received s' input).acted n s').requests = (e.acted n s').requests := by
    rw [Engine.requests_acted, Engine.requests_acted, Engine.requests_received, h₁.requests,
      show (e₁.received s' input).executor = e.executor from h₁.service.executor]
  rcases n.interpret_cases s.bindings input (e.resultAt s n input expiry) with
    ⟨hrefuses, err, ho⟩ | ⟨haccepts, o, ho⟩
  · rw [ho] at hplay
    rw [hplay] at h₂
    refine Or.inl ⟨hrefuses, err, e₂, ?_, hsame.trans h₂.service, h₂.store.trans hstore,
      h₂.requests.trans hrequests⟩
    rw [hstart, Turn.shown, start_bind_of_error hplay]
  · obtain ⟨hs, hfits, hcost⟩ := hready o ho
    have hget : ((e₁.received s' input).acted n s').store.get? id = some s' := by
      rw [hstore, Engine.get?_keep, if_pos]
      rw [← hs']
      exact ha.sameId
    have hlimit : ((Turn.ofInput id (L.pin id) n input).heard o).cost
        ((Turn.ofInput id (L.pin id) n input).heard o).afterDispatch ≤
        Turn.stageLimit (L.pin id) - 2 := Nat.le_sub_one_of_lt hcost
    obtain ⟨hunasked, hruns⟩ := Turn.run_smooth hs hfits hlimit (Turn.isSmooth_afterDispatch _)
    obtain ⟨t', e', s'', hrun, hid, hget', -⟩ := hruns s' hget (hs' ▸ ha.active)
    rw [ho] at hplay
    dsimp only at hplay
    rw [hrun] at hplay hunasked
    rw [hplay] at h₂
    obtain ⟨result, hshown⟩ := Turn.start_shown_of_ok hplay (by rw [hid]; exact hget')
    refine Or.inr ⟨haccepts, result, e₂, ?_, h₂.requests.trans (hunasked.trans hrequests)⟩
    rw [hstart, hshown]

/-- A session whose input was refused awaits another one. -/
theorem awaits_of_refuses (h : e.Sound L others) (ha : e.Awaits id s (L.pin id) n)
    (htime : e.now.afterSeconds? e.settings.sessionTimeout = some expiry) {input : String}
    (hrefuses : n.Refuses input (e.resultAt s n input expiry)) :
    e.SameService ((processInput id input).start e).2 ∧
      ((processInput id input).start e).2.Awaits id (s.receivedAt input e.now expiry)
        (L.pin id) n := by
  rcases processInput_cases h ha htime input with
    ⟨-, err, e', hstart, hsame, hstore, -⟩ | ⟨haccepts, -⟩
  · rw [hstart]
    refine ⟨hsame, ?_, ha.active, ?_, (hsame.version? _ _).trans ha.pinned, ha.node⟩
    · rw [hstore, Engine.get?_keep]
      exact if_pos ha.sameId
    · rw [hsame.now]
      exact s.isPastExpiry_receivedAt input e.settings.timeout_pos htime
  · exact absurd hrefuses haccepts

/-- Whatever comes of an input, the action of the node was asked for, if it has one. -/
theorem requests_processInput (h : e.Sound L others) (ha : e.Awaits id s (L.pin id) n)
    (htime : e.now.afterSeconds? e.settings.sessionTimeout = some expiry) (input : String) :
    ((processInput id input).start e).2.requests =
      (e.acted n (s.receivedAt input e.now expiry)).requests := by
  rcases processInput_cases h ha htime input with
    ⟨-, err, e', hstart, -, -, hrequests⟩ | ⟨-, result, e', hstart, hrequests⟩
  · rw [hstart]
    exact hrequests
  · rw [hstart]
    exact hrequests

/-- An input to a live session is answered exactly if the node where it rests does
not refuse it. -/
theorem processInput_ok_iff (h : e.Sound L others) (ha : e.Awaits id s (L.pin id) n)
    (htime : e.now.afterSeconds? e.settings.sessionTimeout = some expiry) (input : String) :
    (∃ result, ((processInput id input).start e).1 = .ok result) ↔
      ¬ n.Refuses input (e.resultAt s n input expiry) := by
  rcases processInput_cases h ha htime input with
    ⟨hrefuses, err, e', hstart, -⟩ | ⟨haccepts, result, e', hstart, -⟩
  · refine ⟨fun ⟨result, hok⟩ => ?_, fun haccepts => absurd hrefuses haccepts⟩
    rw [hstart] at hok
    cases hok
  · exact ⟨fun _ => haccepts, fun _ => ⟨result, by rw [hstart]⟩⟩

end UssdFlows
