import UssdFlows.Proofs.Service.Lifetimes

/-!
# A turn shows what a redial shows

The screen of a session is made twice: at the end of a turn, from the node where the
turn stands, and whenever the session is looked at, from the node that it has stored
(`screenOf`).  The two agree however a turn ends, because in the end the session is
where the turn stands (`Ending.Fits`): what a caller is shown after an input is what a
look at the session shows right after, with the error above it if there is one
(`Service.Reachable.screens_agree`).  The same holds of the turn that settles a new
session.
-/

namespace UssdFlows

open EngineM

/-! ## Errors on screens -/

namespace Screen

theorem nodeLines_eq_nil_iff {bindings : Dict String} {n : Node} :
    nodeLines bindings n = [] ↔ n.text = "" ∧ n.options = [] := by
  rw [nodeLines, List.append_eq_nil_iff, List.map_eq_nil_iff]
  by_cases h : n.text = "" <;> simp [h]

/-- An error stands above the screen, unless that is empty. -/
theorem render_error (n : Node) (bindings : Dict String) {message : String} (h : message ≠ "") :
    render (some n) bindings (some message) =
      if n.text = "" ∧ n.options = [] then message
      else message ++ "\n" ++ render (some n) bindings none := by
  have herror : errorLines (some message) = [message] := if_neg h
  rw [render, herror, Option.map_some, Option.getD_some]
  split
  · rename_i hempty
    rw [nodeLines_eq_nil_iff.2 hempty, List.append_nil, String.intercalate_singleton]
  · rename_i hlines
    exact String.intercalate_cons_of_ne_nil (mt nodeLines_eq_nil_iff.1 hlines)

end Screen

variable {L : Ledger} {others : String → Prop} {e e' : Engine} {f : Flow} {n : Node}
  {s : Session} {path : List Node} {ending : Ending} {id input : String} {expiry now : Instant}
  {bindings bindings' : Dict String} {o : Outcome}

/-! ## Sessions in the end -/

/-- The session is at the node where its turn has ended, and is over if the turn says so. -/
structure Ending.Fits (f : Flow) (s : Session) (ending : Ending) : Prop where
  node : s.currentNode.bind f.node? = some ending.node
  status : s.status = if ending.isFinished then .completed else .active
  message : ∀ message, ending.error? = some message → message ≠ ""

theorem Ending.Fits.isFinished_iff (h : ending.Fits f s) :
    ending.isFinished = true ↔ s.status = .completed := by
  rw [h.status]
  cases ending.isFinished <;> simp

/-- Nobody is told of an error in the end of a session. -/
theorem Ending.not_error_of_isFinished (ending : Ending) :
    ¬ (ending.error?.isSome = true ∧ ending.isFinished = true) := by
  cases ending <;> simp [Ending.error?, Ending.isFinished]

theorem Flow.Settles.fits (h : f.Settles bindings n path ending) (hn : f.node? n.id = some n)
    (hstatus : s.status = .active) : ending.Fits f (ending.session now (s.movedTo n now)) := by
  induction h generalizing s with
  | rests _ => exact ⟨hn, hstatus, nofun⟩
  | ends _ _ => exact ⟨hn, rfl, nofun⟩
  | @leads n m c b next target path ending _ _ hm hrest ih =>
      have hsession : ending.session now (s.movedTo n now) =
          ending.session now ((s.movedTo n now).movedTo m now) :=
        (hrest.session_movedTo now _ m).symm
      rw [hsession]
      exact ih (node?_id_of_node? hm) hstatus

theorem Flow.Follows.fits (h : f.Follows n bindings o bindings' path ending)
    (hn : f.node? n.id = some n) (hcurrent : s.currentNode = some n.id)
    (hstatus : s.status = .active) : ending.Fits f (ending.session now s) := by
  cases h with
  | @stays message hmove =>
      refine ⟨?_, hstatus, fun message' hmessage => ?_⟩
      · rw [Ending.session, hcurrent]
        exact hn
      · cases hmessage
        rw [shownMessage]
        split <;> simp_all
  | ends _ =>
      refine ⟨hn, rfl, fun message hmessage => ?_⟩
      cases hmessage
  | @goes m target path ending _ hm hsettles =>
      rw [← hsettles.session_movedTo now s m]
      exact hsettles.fits (node?_id_of_node? hm) hstatus

/-- A session stays with its flow. -/
theorem Ending.sameFlow (ending : Ending) (now : Instant) (s : Session) :
    (ending.session now s).flowId = s.flowId ∧
      (ending.session now s).flowVersion = s.flowVersion := by
  cases ending with
  | refused _ _ => exact ⟨rfl, rfl⟩
  | rests _ => exact ⟨rfl, rfl⟩
  | completed _ => exact ⟨rfl, rfl⟩

theorem start_screenOf (hf : e.registry.version? s.flowId s.flowVersion = some f) :
    (screenOf s).start e =
      (.ok (if s.isActive then Screen.render (s.currentNode.bind f.node?) s.bindings none
        else Turn.closing (s.currentNode.bind f.node?) s), e) := by
  rw [screenOf, start_bind_of_ok (start_flowOf_of_stored hf)]
  rfl

/-- **Screens.**  What belongs to the end of a turn is what the session shows then, below
the error if there is one. -/
theorem Ending.Fits.start_screenOf (h : ending.Fits f s)
    (hf : e.registry.version? s.flowId s.flowVersion = some f) :
    ∃ screen, (screenOf s).start e = (.ok screen, e) ∧
      (ending.error? = none → ending.screen s = screen) ∧
      ∀ message, ending.error? = some message → ending.screen s =
        if ending.node.text = "" ∧ ending.node.options = [] then message
        else message ++ "\n" ++ screen := by
  refine ⟨_, UssdFlows.start_screenOf hf, ?_, ?_⟩
  · intro hnone
    rw [h.node, Session.isActive, h.status]
    cases ending with
    | refused m message => cases hnone
    | rests m => rfl
    | completed m => rfl
  · intro message hmessage
    rw [h.node, Session.isActive, h.status]
    cases ending with
    | refused m message' =>
        cases hmessage
        exact Screen.render_error m s.bindings (h.message message rfl)
    | rests m => cases hmessage
    | completed m => cases hmessage

/-! ## Inputs -/

/-- Only the count of the outcome grows when the handling of an input is concluded. -/
theorem counts_concludeInput (id : String) (r : Except EngineError Answered) (e : Engine)
    (o : InputOutcome) :
    ((concludeInput id r).start e).2.metrics.count (.inputs o) =
      e.metrics.count (.inputs o) + if o = outcomeOf r then 1 else 0 := by
  have hcount : ((e.tally (.inputs (outcomeOf r)) 1).tally .inputTimes 1).metrics.count
      (.inputs o) = e.metrics.count (.inputs o) + if o = outcomeOf r then 1 else 0 := by
    simp only [Engine.tally, Metrics.count_add, reduceCtorEq, if_false, Metric.inputs.injEq,
      eq_comm (a := outcomeOf r)]
    split <;> omega
  rw [← hcount, concludeInput, start_bind_of_ok (start_count ..), start_bind_of_ok (start_count ..)]
  by_cases hd : outcomeOf r = .completed || outcomeOf r = .expired
  · rw [if_pos hd]
    rcases r with err | result | ⟨outcome, status⟩ <;> rfl
  · rw [if_neg hd]
    rcases r with err | result | ⟨outcome, status⟩ <;> rfl

/-- An input that was answered was answered by a node where the session was waiting. -/
theorem Engine.Sound.exists_of_processInput_ok (h : e.Sound L others) {r : Navigation}
    (hstart : (processInput id input).start e = (.ok r, e')) :
    ∃ s n expiry o, e.Awaits id s (L.pin id) n ∧
      e.now.afterSeconds? e.settings.sessionTimeout = some expiry ∧
      n.interpret s.bindings input (e.resultAt s n input expiry) = .ok o := by
  cases hget : e.store.get? id with
  | none =>
      obtain ⟨e₁, e₂, h₁, -, hall⟩ := start_processInput_calm id input e
      have hmissing : e₁.store.get? id = none := h₁.alike.store ▸ hget
      rw [answerInput, start_bind_of_error (start_admission_of_missing hmissing input)] at hall
      cases hstart.symm.trans hall
  | some s =>
      cases ha : s.isActive with
      | false =>
          obtain ⟨_, hover, -⟩ := start_processInput_of_over hget ha input
          cases hstart.symm.trans hover
      | true =>
          cases hx : s.isPastExpiry e.now with
          | true =>
              obtain ⟨_, _, -, -, hlapsed⟩ := start_processInput_of_lapsed hget ha hx input
              cases hstart.symm.trans hlapsed
          | false =>
              obtain ⟨n, hawaits⟩ := h.awaits hget (by rw [Session.isLive, ha, hx]; rfl)
              cases htime : e.now.afterSeconds? e.settings.sessionTimeout with
              | none =>
                  obtain ⟨_, hlate, -⟩ := hawaits.start_processInput_of_late htime input
                  cases hstart.symm.trans hlate
              | some expiry =>
                  rcases processInput_cases h hawaits htime input with
                    ⟨-, _, _, hfails, -⟩ | ⟨haccepts, -⟩
                  · cases hstart.symm.trans hfails
                  · obtain ⟨o, ho⟩ := ((n.interpret_cases s.bindings input
                      (e.resultAt s n input expiry)).resolve_left fun hr => haccepts hr.1).2
                    exact ⟨s, n, expiry, o, hawaits, rfl, ho⟩

/-- What the handling of an input counts and leaves when it is followed to an end. -/
theorem Engine.Awaits.start_processInput_exact (ha : e.Awaits id s f n) (hwf : f.WellFormed)
    (hr : e.replaced = []) (htime : e.now.afterSeconds? e.settings.sessionTimeout = some expiry)
    (ho : n.interpret s.bindings input (e.resultAt s n input expiry) = .ok o)
    (hfollows : f.Follows n s.bindings o bindings path ending) :
    let s' := ending.session e.now { s.receivedAt input e.now expiry with bindings }
    ∃ e', (processInput id input).start e = (.ok (ending.navigation s'), e') ∧
      e'.store.get? id = some s' ∧ e.SameService e' ∧
      ∀ o, e'.metrics.count (.inputs o) =
        e.metrics.count (.inputs o) + if o = (ending.navigation s').outcome then 1 else 0 := by
  intro s'
  obtain ⟨t', e₁, hshown, hstored, hover⟩ := ha.start_shown_ofInput hwf hr htime ho hfollows
  have hanswer : (answerInput id input).start e = (.ok (.inl (ending.navigation s')), e₁) := by
    rw [start_answerInput_of_awaits ha, hshown]
  obtain ⟨locks, hhold⟩ := (lockFree_answerInput id input).start_hold id e
  rw [hanswer] at hhold
  have hall : (processInput id input).start e =
      (concludeInput id (.ok (.inl (ending.navigation s')))).start { e₁ with locks } := by
    rw [processInput, start_bind_of_ok (start_attempt ..), hhold]
  obtain ⟨e', hconclude, halike, -⟩ :=
    start_concludeInput id (.ok (.inl (ending.navigation s'))) { e₁ with locks }
  have hcounts := counts_concludeInput id (.ok (.inl (ending.navigation s'))) { e₁ with locks }
  rw [hconclude] at hcounts hall
  have hsame : e.SameService e₁ := ((e.sameService_received _ input).trans
    (Engine.sameService_acted ..)).trans hover.service
  refine ⟨e', hall, ?_, (hsame.trans (e₁.alike_locks locks).service).trans halike.service,
    fun o => ?_⟩
  · rw [halike.store]
    exact hstored
  · have hinputs : e.SameInputs e₁ := (SameInputs.acted (e.received _ input) n _).trans hover.inputs
    rw [hcounts o]
    exact congrArg (· + _) (hinputs o)

/-! ## New sessions -/

/-- The turn of a session that is opened computes the screen of that session. -/
theorem Engine.Sound.start_createSession_shown (h : e.Sound L others) {c : Caller}
    (hstart : (createSession c).start e = (.ok s, e'))
    (hnone : e.store.findLive? c.flowId c.phoneNumber c.ussdCode e.now = none) :
    ∃ f n expiry t e₂ locks, e.registry.get? c.flowId = some f ∧
      f.node? f.startNode = some n ∧
      (Turn.start (sessionId e.nextSession) f n none).play.start (e.numbered.opened
        (.newlyOpened (sessionId e.nextSession) f c e.now expiry)) = (.ok t, e₂) ∧
      e' = { e₂ with locks } ∧ (screenOf s).start e' = (.ok t.prompt, e') := by
  cases hf : e.registry.get? c.flowId with
  | none =>
      rw [createSession, start_bind_of_error (start_currentFlow_of_none hf)] at hstart
      cases hstart
  | some f =>
      cases htime : e.now.afterSeconds? e.settings.sessionTimeout with
      | none =>
          obtain ⟨_, hlate, -⟩ := start_createSession_of_late hf hnone htime
          cases hstart.symm.trans hlate
      | some expiry =>
          have hflow := Registry.mem_of_get? hf
          have hwf : f.WellFormed := h.registry.validated f hflow.1
          obtain ⟨n, hn⟩ := hwf.start
          have hself : f.node? n.id = some n := Flow.node?_id_of_node? hn
          obtain ⟨path, ending, hsettles⟩ := hwf.exists_settles hself f.defaults
          generalize hs₀ : Session.newlyOpened (sessionId e.nextSession) f c e.now expiry = s₀
          obtain ⟨hnew, t, e₂, hplay, hover⟩ := h.start_play_opened hf hn hs₀.symm hsettles
          have hid : s₀.id = sessionId e.nextSession := by
            rw [← hs₀]
            rfl
          obtain ⟨locks, hcreate⟩ := start_createSession_of_new hf hn hnone htime (hid ▸ hnew)
            hs₀.symm hplay (by rw [hover.sameId, hover.stored])
          obtain ⟨hs, he'⟩ := Prod.mk.inj (hstart.symm.trans hcreate)
          cases hs
          subst he'
          have hfits : ending.Fits f (ending.session e.now s₀) := by
            have hmoved : s₀.movedTo n e.now = s₀ := by
              rw [← hs₀, Session.movedTo, show n.id = f.startNode from KeyedList.key_of_find? hn]
              rfl
            rw [← hmoved, ← hs₀]
            exact hsettles.fits hself rfl
          have hpinned : e₂.registry.version? (ending.session e.now s₀).flowId
              (ending.session e.now s₀).flowVersion = some f := by
            rw [(ending.sameFlow e.now s₀).1, (ending.sameFlow e.now s₀).2,
              hover.service.version?, ← hs₀]
            exact Registry.version?_of_mem hflow.1
          obtain ⟨screen, hscreen, hplain, -⟩ :=
            hfits.start_screenOf (e := { e₂ with locks }) hpinned
          have hprompt : t.prompt = screen := hover.prompt.trans (hplain hsettles.error?_eq_none)
          exact ⟨f, n, expiry, t, e₂, locks, rfl, hn, hid ▸ hs₀ ▸ hplay, rfl, hprompt ▸ hscreen⟩

/-! ## In every state of the service -/

/-- **Screens agree.**  In every state that a service can be in, whenever an input is
answered, then right after

* what the answer says of the session is what is stored of it, and it is answered that
  the session is over exactly if it has been completed, and never together with an error;
* the input has been counted once, by how the turn ended;
* the answer shows what a look at the session shows, below the error if there is one: the
  error stands alone exactly at nodes with neither text nor options.

When a session is started then either a live one was found, or a new one was made, whose
first turn has computed what a look at the session shows right after. -/
theorem Service.Reachable.screens_agree {w : Service} (hw : w.Reachable) :
    (∀ id input r e', (processInput id input).start w.engine = (.ok r, e') →
      ∃ s n screen, e'.store.get? id = some s ∧ e'.nodeAt? s = some n ∧
        (screenOf s).start e' = (.ok screen, e') ∧
        r.sessionId = id ∧ r.status = s.status ∧ r.node = s.currentNode ∧
        (r.isFinished = true ↔ s.status = .completed) ∧
        ¬ (r.error.isSome = true ∧ r.isFinished = true) ∧
        (∀ o, e'.metrics.count (.inputs o) = w.engine.metrics.count (.inputs o) +
          if o = (if r.error.isSome then .reprompt else if r.isFinished then .completed
            else .advanced) then 1 else 0) ∧
        (r.error = none → r.prompt = screen) ∧
        ∀ message, r.error = some message → r.prompt =
          if n.text = "" ∧ n.options = [] then message else message ++ "\n" ++ screen) ∧
    ∀ c s e', (createSession c).start w.engine = (.ok s, e') →
      w.engine.store.findLive? c.flowId c.phoneNumber c.ussdCode w.engine.now = some s ∨
        ∃ f n expiry t e₂ locks, w.engine.registry.get? c.flowId = some f ∧
          f.node? f.startNode = some n ∧
          (Turn.start (sessionId w.engine.nextSession) f n none).play.start
            (w.engine.numbered.opened (.newlyOpened (sessionId w.engine.nextSession) f c
              w.engine.now expiry)) = (.ok t, e₂) ∧
          e' = { e₂ with locks } ∧ (screenOf s).start e' = (.ok t.prompt, e') := by
  obtain ⟨L, h⟩ := hw.sound
  constructor
  · intro id input r e' hstart
    obtain ⟨s, n, expiry, o, ha, htime, ho⟩ := h.engine.exists_of_processInput_ok hstart
    have hwf := (h.engine.stored ha.stored).2.2.1
    have hself : (L.pin id).node? n.id = some n := by
      have hnode := ha.node
      rw [ha.resting] at hnode
      exact hnode
    obtain ⟨bindings, path, ending, hfollows⟩ := hwf.exists_follows hself ho
    obtain ⟨e₁, hanswered, hget, hsame, hcounts⟩ :=
      ha.start_processInput_exact hwf h.engine.replaced htime ho hfollows
    obtain ⟨hr, he₁⟩ := Prod.mk.inj (hstart.symm.trans hanswered)
    cases hr
    subst he₁
    have hstatus : s.status = .active := by simpa [Session.isActive] using ha.active
    have hfits : ending.Fits (L.pin id) (ending.session w.engine.now
        { s.receivedAt input w.engine.now expiry with bindings }) :=
      hfollows.fits hself ha.resting hstatus
    generalize hs' : ending.session w.engine.now
      { s.receivedAt input w.engine.now expiry with bindings } = s' at *
    have hpinned : e'.registry.version? s'.flowId s'.flowVersion = some (L.pin id) := by
      rw [hsame.version?, ← hs', (ending.sameFlow ..).1, (ending.sameFlow ..).2]
      exact ha.pinned
    obtain ⟨screen, hscreen, hplain, herror⟩ := hfits.start_screenOf hpinned
    have hid : s'.id = id := KeyedList.key_of_find? hget
    refine ⟨s', ending.node, screen, hget, ?_, hscreen, hid, rfl, rfl, ?_, ?_, hcounts, hplain,
      herror⟩
    · rw [Engine.nodeAt?, hpinned, Option.bind_some, hfits.node]
    · exact hfits.isFinished_iff
    · exact ending.not_error_of_isFinished
  · intro c s e' hstart
    cases hlive : w.engine.store.findLive? c.flowId c.phoneNumber c.ussdCode w.engine.now with
    | none => exact .inr (h.engine.start_createSession_shown hstart hlive)
    | some s' =>
        cases hf : w.engine.registry.get? c.flowId with
        | none =>
            rw [createSession, start_bind_of_error (start_currentFlow_of_none hf)] at hstart
            cases hstart
        | some f =>
            obtain ⟨locks, hfound⟩ := start_createSession_of_found hf hlive
            cases hstart.symm.trans hfound
            exact .inl rfl

/-- A caller of that flow who gives no name is shown the error above what a look at the
session shows. -/
theorem Service.screens_agree_sorting :
    sorting.Reachable ∧ ∃ r e' s screen,
      (processInput (sessionId 1) "").start sorting.engine = (.ok r, e') ∧
        e'.store.get? (sessionId 1) = some s ∧ (screenOf s).start e' = (.ok screen, e') ∧
        r.prompt = "Input is required" ++ "\n" ++ screen := by
  have hreachable : sorting.Reachable :=
    ((Reachable.fresh ..).step (.perform _ (.publish .sorting))).step
      (.perform _ (.create ⟨"sorting", "555", "*1#"⟩))
  have hanswered : ((processInput (sessionId 1) "").start sorting.engine).1.toOption.any (fun r =>
      decide (r.error = some "Input is required") && decide (r.prompt ≠ "Input is required")) =
      true := by decide +kernel
  obtain ⟨r, hr, hshown⟩ := (Option.any_eq_true _ _).1 hanswered
  rw [Bool.and_eq_true, decide_eq_true_eq, decide_eq_true_eq] at hshown
  obtain ⟨herror, hprompt⟩ := hshown
  cases hstart : (processInput (sessionId 1) "").start sorting.engine with
  | mk result e' =>
      rw [hstart] at hr
      cases result with
      | error _ => cases hr
      | ok r' =>
          cases hr
          obtain ⟨s, n, screen, hget, -, hscreen, -, -, -, -, -, -, -, hbelow⟩ :=
            hreachable.screens_agree.1 _ _ _ _ hstart
          have hshows := hbelow _ herror
          split at hshows
          · exact absurd hshows hprompt
          · exact ⟨hreachable, r, e', s, screen, rfl, hget, hscreen, hshows⟩

end UssdFlows
