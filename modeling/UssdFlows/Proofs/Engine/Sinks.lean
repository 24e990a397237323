import UssdFlows.Proofs.Engine.Operations
import UssdFlows.Proofs.Service.Moves

/-!
# Operations take no notice of the sink

Events only go out: no operation looks at the sink that it hands them to.  So an
operation does the same whatever the sink is, and hands the same events to each
sink (`SinkFree`).  The programs that operations are made of are gone through one
after another, then the phases of an operation in progress (`Phase.sinkFree_step`),
and then whole runs of the service (`Service.after_withSink`).
-/

namespace UssdFlows

open EngineM

variable {α β : Type} {e e' e'' : Engine} {v : Visitor}

/-- The sink after some events. -/
def Engine.toldTo (es : List Event) (sink : Option Sink) : Option Sink :=
  sink.map fun k => es.foldl Sink.publish k

@[simp] theorem Engine.toldTo_nil (sink : Option Sink) : toldTo [] sink = sink := by
  simp [toldTo]

@[simp] theorem Engine.toldTo_append (es es' : List Event) (sink : Option Sink) :
    toldTo (es ++ es') sink = toldTo es' (toldTo es sink) := by
  simp [toldTo, Function.comp_def]

/-- The sink is handed some events, one after another. -/
def Engine.Tells (e : Engine) (es : List Event) (e' : Engine) : Prop := e'.sink = toldTo es e.sink

theorem Engine.Tells.trans {es es' : List Event} (h : e.Tells es e') (h' : e'.Tells es' e'') :
    e.Tells (es ++ es') e'' := by
  unfold Tells at *
  rw [h', h, toldTo_append]

theorem Engine.tells_nil (h : e'.sink = e.sink) : e.Tells [] e' := by
  simp [Tells, h]

theorem Engine.Silent.tells (h : e.Silent e') : e.Tells [] e' := Engine.tells_nil h.sink

/-- A memory without limit keeps all that it was told. -/
theorem Engine.toldTo_memory (es kept : List Event) :
    toldTo es (some (.memory none kept)) = some (.memory none (kept ++ es)) := by
  induction es generalizing kept with
  | nil => simp
  | cons event es ih =>
      have hrest := ih (kept ++ [event])
      simp only [toldTo, Option.map_some, List.foldl_cons, Sink.publish_memory] at hrest ⊢
      rw [hrest, List.append_assoc, List.singleton_append]

/-! ## Programs -/

namespace EngineM

/-- A program does the same whatever the sink is, and tells each sink the same. -/
structure SinkFree (x : EngineM α) : Prop where
  same : ∀ e : Engine, ∃ es, ∀ sink, x.start { e with sink } =
    ((x.start e).1, { (x.start e).2 with sink := Engine.toldTo es sink })

/-- A program that tells nothing does the same whatever the sink is. -/
theorem sinkFree_of_silent {x : EngineM α} (h : ∀ e sink, x.start { e with sink } =
    ((x.start e).1, { (x.start e).2 with sink })) : SinkFree x :=
  ⟨fun e => ⟨[], fun sink => by rw [h, Engine.toldTo_nil]⟩⟩

theorem sinkFree_bind {x : EngineM α} {f : α → EngineM β} (hx : SinkFree x)
    (hf : ∀ a, SinkFree (f a)) : SinkFree (x >>= f) := by
  refine ⟨fun e => ?_⟩
  obtain ⟨es, hes⟩ := hx.same e
  cases hr : x.start e with
  | mk r e' =>
      rw [hr] at hes
      cases r with
      | error err => exact ⟨es, fun sink => by rw [start_bind, start_bind, hes, hr]⟩
      | ok a =>
          obtain ⟨es', hes'⟩ := (hf a).same e'
          refine ⟨es ++ es', fun sink => ?_⟩
          rw [start_bind, start_bind, hes, hr, Engine.toldTo_append]
          exact hes' _

/-- A program may read the engine if it does not look at the sink. -/
theorem sinkFree_get_bind {f : Engine → EngineM β} (hf : ∀ e, SinkFree (f e))
    (hsink : ∀ (e : Engine) (sink : Option Sink), f { e with sink } = f e) :
    SinkFree (get >>= f) := by
  refine ⟨fun e => ?_⟩
  obtain ⟨es, hes⟩ := (hf e).same e
  refine ⟨es, fun sink => ?_⟩
  rw [start_bind_of_ok (start_get _), start_bind_of_ok (start_get _), hsink]
  exact hes sink

theorem sinkFree_pure (a : α) : SinkFree (pure a) := sinkFree_of_silent fun _ _ => rfl

theorem sinkFree_throw (err : EngineError) : SinkFree (throw err : EngineM α) :=
  sinkFree_of_silent fun _ _ => rfl

theorem sinkFree_throw_bind (err : EngineError) (f : α → EngineM β) :
    SinkFree (throw err >>= f) := sinkFree_of_silent fun _ _ => rfl

theorem sinkFree_ofResult (r : Except EngineError α) : SinkFree (ofResult r) :=
  sinkFree_of_silent fun _ _ => rfl

theorem sinkFree_ofOption (err : EngineError) (o : Option α) : SinkFree (ofOption err o) := by
  cases o with
  | none => exact sinkFree_throw err
  | some a => exact sinkFree_pure a

theorem sinkFree_attempt {x : EngineM α} (h : SinkFree x) : SinkFree (attempt x) := by
  refine ⟨fun e => ?_⟩
  obtain ⟨es, hes⟩ := h.same e
  refine ⟨es, fun sink => ?_⟩
  rw [start_attempt, hes]
  rfl

theorem sinkFree_add (m : Metric) (n : Int) : SinkFree (add m n) :=
  sinkFree_of_silent fun _ _ => rfl

theorem sinkFree_count (m : Metric) : SinkFree (count m) := sinkFree_add m 1

theorem sinkFree_enterLock (key : String) (v : Visitor) : SinkFree (enterLock key v) :=
  sinkFree_of_silent fun _ _ => rfl

theorem sinkFree_leaveLock (key : String) (n : Nat) (v : Visitor) :
    SinkFree (leaveLock key n v) := sinkFree_of_silent fun _ _ => rfl

theorem sinkFree_discard (key : String) : SinkFree (discard key) :=
  sinkFree_of_silent fun _ _ => rfl

/-- The one program that tells the sink something. -/
theorem sinkFree_emit (type : EventType) (s : Session) (node : Option String)
    (data : List (String × Value)) : SinkFree (emit type s node data) :=
  ⟨fun e => ⟨[.ofSession type s node data e.now], fun _ => rfl⟩⟩

theorem sinkFree_session (id : String) : SinkFree (session id) :=
  sinkFree_get_bind (fun _ => sinkFree_ofOption _ _) fun _ _ => rfl

theorem sinkFree_served (id : String) : SinkFree (served id) :=
  sinkFree_get_bind (fun _ => sinkFree_ofOption _ _) fun _ _ => rfl

theorem sinkFree_flowOf (s : Session) : SinkFree (flowOf s) :=
  sinkFree_get_bind (fun _ => sinkFree_ofOption _ _) fun _ _ => rfl

theorem sinkFree_nodeOf (f : Flow) (node : Option String) : SinkFree (nodeOf f node) :=
  sinkFree_ofOption _ _

theorem sinkFree_change (id : String) (f : Session → Session) : SinkFree (change id f) :=
  sinkFree_bind (sinkFree_of_silent fun _ _ => rfl) fun _ => sinkFree_served id

end EngineM

/-! ## Flows and sessions -/

theorem sinkFree_examine (f : Flow) : SinkFree (examine f) :=
  sinkFree_get_bind (fun _ => sinkFree_bind (sinkFree_count _) fun _ => sinkFree_pure _)
    fun _ _ => rfl

theorem sinkFree_publishFlow (f : Flow) : SinkFree (publishFlow f) := by
  refine sinkFree_bind (sinkFree_examine f) fun report => ?_
  cases report.isValid with
  | false => exact sinkFree_throw_bind _ _
  | true =>
      exact sinkFree_get_bind (fun e => sinkFree_bind (sinkFree_of_silent fun _ _ => rfl)
        fun _ => sinkFree_pure _) fun _ _ => rfl

theorem sinkFree_currentFlow (flowId : String) : SinkFree (currentFlow flowId) :=
  sinkFree_get_bind (fun _ => sinkFree_ofOption _ _) fun _ _ => rfl

theorem sinkFree_openSession (f : Flow) (c : Caller) : SinkFree (openSession f c) := by
  refine sinkFree_get_bind (fun e => ?_) fun _ _ => rfl
  cases e.store.findLive? c.flowId c.phoneNumber c.ussdCode e.now with
  | some s => exact sinkFree_pure _
  | none =>
      have hnew : SinkFree (newSession f c) := by
        refine sinkFree_get_bind (fun e => ?_) fun _ _ => rfl
        exact sinkFree_bind (sinkFree_ofOption _ _) fun expiry =>
          sinkFree_bind (sinkFree_of_silent fun _ _ => rfl) fun _ => sinkFree_pure _
      exact sinkFree_bind hnew fun s =>
        sinkFree_bind (sinkFree_nodeOf _ _) fun n => sinkFree_pure _

theorem sinkFree_storeSession (s : Session) : SinkFree (storeSession s) := by
  refine sinkFree_get_bind (fun e => ?_) fun _ _ => rfl
  refine sinkFree_bind (sinkFree_ofResult _) fun store => ?_
  exact sinkFree_bind (sinkFree_of_silent fun _ _ => rfl) fun _ =>
    sinkFree_bind (sinkFree_add _ _) fun _ =>
      sinkFree_bind (sinkFree_count _) fun _ => sinkFree_emit ..

theorem sinkFree_lapse (id : String) (now : Instant) : SinkFree (lapse id now) := by
  refine sinkFree_bind (sinkFree_change _ _) fun s => ?_
  refine sinkFree_bind (sinkFree_add _ _) fun _ => sinkFree_bind (sinkFree_count _) fun _ => ?_
  exact sinkFree_get_bind (fun _ => sinkFree_emit ..) fun _ _ => rfl

theorem sinkFree_admission (id text : String) : SinkFree (admission id text) := by
  refine sinkFree_bind (sinkFree_session id) fun s => sinkFree_get_bind (fun e => ?_) fun _ _ => rfl
  cases s.isActive with
  | false => exact sinkFree_pure _
  | true =>
      cases s.isPastExpiry e.now with
      | true => exact sinkFree_bind (sinkFree_lapse id e.now) fun _ => sinkFree_pure _
      | false =>
          exact sinkFree_bind (sinkFree_flowOf s) fun f =>
            sinkFree_bind (sinkFree_nodeOf f _) fun n => sinkFree_pure _

theorem sinkFree_endSession (id reason : String) : SinkFree (endSession id reason) := by
  refine sinkFree_bind (sinkFree_session id) fun s => ?_
  cases s.isActive with
  | false => exact sinkFree_throw_bind _ _
  | true =>
      refine sinkFree_get_bind (fun e => ?_) fun _ _ => rfl
      refine sinkFree_bind (sinkFree_change _ _) fun s' => ?_
      refine sinkFree_bind (sinkFree_add _ _) fun _ => sinkFree_bind (sinkFree_count _) fun _ => ?_
      exact sinkFree_bind (sinkFree_emit ..) fun _ => sinkFree_pure _

theorem sinkFree_lapseIfDue (id : String) (now : Instant) : SinkFree (lapseIfDue id now) := by
  refine sinkFree_get_bind (fun e => ?_) fun _ _ => rfl
  cases e.store.get? id with
  | none => exact sinkFree_pure _
  | some s =>
      dsimp only
      split
      · exact sinkFree_bind (sinkFree_lapse id now) fun _ => sinkFree_pure _
      · exact sinkFree_pure _

theorem sinkFree_navigationOf (t : Turn) : SinkFree (navigationOf t) :=
  sinkFree_bind (sinkFree_served _) fun _ => sinkFree_pure _

/-- The last part of the handling of an input. -/
theorem sinkFree_answered (id : String) (r : Except EngineError Answered) :
    SinkFree (do match ← ofResult r with
      | .inl result => return result
      | .inr (_, status) => throw (.notActive id status) : EngineM Navigation) := by
  refine sinkFree_bind (sinkFree_ofResult r) fun a => ?_
  rcases a with shown | ⟨outcome, status⟩
  · exact sinkFree_pure shown
  · exact sinkFree_throw _

theorem sinkFree_concludeInput (id : String) (r : Except EngineError Answered) :
    SinkFree (concludeInput id r) := by
  refine sinkFree_bind (sinkFree_count _) fun _ => sinkFree_bind (sinkFree_count _) fun _ => ?_
  dsimp only
  split
  · exact sinkFree_bind (sinkFree_discard id) fun _ => sinkFree_answered id r
  · exact sinkFree_answered id r

/-! ## The stages of a turn -/

namespace Turn

theorem sinkFree_recordInput (t : Turn) : SinkFree t.recordInput := by
  refine sinkFree_get_bind (fun e => ?_) fun _ _ => rfl
  refine sinkFree_bind (sinkFree_change _ _) fun s => ?_
  refine sinkFree_bind (sinkFree_ofOption _ _) fun renewed => ?_
  refine sinkFree_bind (sinkFree_change _ _) fun s' => ?_
  exact sinkFree_bind (sinkFree_emit ..) fun _ => sinkFree_pure t

/-- What the executor is asked is written along with all the rest of the engine. -/
theorem sinkFree_request (t : Turn) (s : Session) : SinkFree (do
    let e ← get
    match interpreter e t.node with
    | .inr _ => return none
    | .inl h =>
      if h.runsAction t.node && e.executor.isSome then
        let request : ActionRequest := ⟨t.node, s⟩
        set { e with requests := e.requests ++ [request] }
        return some ⟨e.requests, request⟩
      else return none : EngineM (Option Pending)) := by
  refine sinkFree_of_silent fun e sink => ?_
  rw [start_bind_of_ok (start_get _), start_bind_of_ok (start_get _),
    show interpreter { e with sink } t.node = interpreter e t.node from rfl]
  cases interpreter e t.node with
  | inr o => rfl
  | inl h =>
      dsimp only
      split <;> rfl

theorem sinkFree_ask (t : Turn) : SinkFree t.ask := by
  refine sinkFree_bind (sinkFree_served _) fun s => ?_
  dsimp only
  split
  · exact sinkFree_bind (sinkFree_emit ..) fun _ => t.sinkFree_request s
  · exact t.sinkFree_request s

theorem sinkFree_hear (t : Turn) (pending : Option Pending) : SinkFree (t.hear pending) := by
  refine sinkFree_get_bind (fun e => sinkFree_bind (sinkFree_served _) fun s => ?_) fun _ _ => rfl
  have hend : ∀ r : Except EngineError Outcome, SinkFree (do
      let outcome ← ofResult r
      return { t with
        outcome := some outcome
        metadata := t.metadata.putAll outcome.metadata.items } : EngineM Turn) :=
    fun r => sinkFree_bind (sinkFree_ofResult r) fun _ => sinkFree_pure _
  cases interpreter e t.node with
  | inr o => exact hend _
  | inl h =>
      dsimp only
      split
      · split
        · exact sinkFree_bind (sinkFree_count _) fun _ => sinkFree_bind (sinkFree_count _) fun _ =>
            hend _
        · exact sinkFree_bind (sinkFree_count _) fun _ => hend _
      · exact hend _

theorem sinkFree_navigate (id : String) (f : Flow) (node : String) :
    SinkFree (navigate id f node) := by
  refine sinkFree_bind (sinkFree_nodeOf f _) fun n => sinkFree_get_bind (fun e => ?_) fun _ _ => rfl
  refine sinkFree_bind (sinkFree_change _ _) fun s => sinkFree_bind (sinkFree_count _) fun _ => ?_
  exact sinkFree_bind (sinkFree_emit ..) fun _ => sinkFree_pure n

theorem sinkFree_advance (t : Turn) : SinkFree t.advance := by
  rw [advance]
  cases t.outcome with
  | none => exact sinkFree_throw _
  | some o =>
      dsimp only
      cases o.target? with
      | none => exact sinkFree_throw _
      | some target =>
          exact sinkFree_bind (sinkFree_navigate ..) fun n =>
            sinkFree_bind (sinkFree_change _ _) fun _ => sinkFree_pure _

theorem sinkFree_finishSession (id : String) : SinkFree (finishSession id) := by
  refine sinkFree_bind (sinkFree_served id) fun s => ?_
  cases s.isActive with
  | false => exact sinkFree_throw_bind _ _
  | true =>
      refine sinkFree_get_bind (fun e => ?_) fun _ _ => rfl
      refine sinkFree_bind (sinkFree_change _ _) fun s' => ?_
      refine sinkFree_bind (sinkFree_of_silent fun _ _ => rfl) fun _ => ?_
      refine sinkFree_bind (sinkFree_add _ _) fun _ => sinkFree_bind (sinkFree_count _) fun _ => ?_
      exact sinkFree_bind (sinkFree_emit ..) fun _ => sinkFree_pure s'

theorem sinkFree_complete (t : Turn) : SinkFree t.complete := by
  have hfinish : ∀ f : Session → Turn, SinkFree (do
      let s ← finishSession t.sessionId
      return f s : EngineM Turn) :=
    fun f => sinkFree_bind (sinkFree_finishSession _) fun s => sinkFree_pure _
  rw [complete]
  cases t.outcome with
  | none => exact hfinish _
  | some o => exact sinkFree_bind (sinkFree_change _ _) fun _ => hfinish _

/-- No stage looks at the sink. -/
theorem sinkFree_perform (t : Turn) (σ : Stage) : SinkFree (t.perform σ) := by
  cases σ with
  | recordInput => exact t.sinkFree_recordInput
  | dispatch => exact sinkFree_bind t.sinkFree_ask fun pending => t.sinkFree_hear pending
  | advance => exact t.sinkFree_advance
  | complete => exact t.sinkFree_complete
  | reprompt =>
      exact sinkFree_bind (sinkFree_served _) fun _ =>
        sinkFree_bind (sinkFree_emit ..) fun _ => sinkFree_pure _
  | respond => exact sinkFree_bind (sinkFree_served _) fun _ => sinkFree_pure _

end Turn

/-! ## Operations in progress -/

namespace Phase

theorem sinkFree_endWith {x : EngineM Reply} (h : SinkFree x) : SinkFree (endWith x) :=
  sinkFree_bind (sinkFree_attempt h) fun _ => sinkFree_pure _

theorem sinkFree_conclude (id : String) (lock : Nat) (r : Except EngineError Turn)
    (purpose : Purpose) : SinkFree (conclude v id lock r purpose) := by
  cases purpose with
  | settle c callerLock =>
      have hserved : SinkFree (do servedBy (← ofResult r) : EngineM Session) :=
        sinkFree_bind (sinkFree_ofResult r) fun t => sinkFree_served t.sessionId
      refine sinkFree_bind (sinkFree_attempt hserved) fun r' => ?_
      refine sinkFree_bind (sinkFree_leaveLock ..) fun _ => ?_
      refine sinkFree_bind (sinkFree_leaveLock ..) fun _ => ?_
      refine sinkFree_bind (sinkFree_ofResult r') fun s => ?_
      exact sinkFree_bind (sinkFree_discard _) fun _ => sinkFree_pure _
  | answer =>
      have hshown : SinkFree (do navigationOf (← ofResult r) : EngineM Navigation) :=
        sinkFree_bind (sinkFree_ofResult r) sinkFree_navigationOf
      refine sinkFree_bind (sinkFree_attempt hshown) fun r' => ?_
      refine sinkFree_bind (sinkFree_leaveLock ..) fun _ => ?_
      refine sinkFree_bind (sinkFree_concludeInput ..) fun shown => ?_
      exact sinkFree_bind (sinkFree_served id) fun _ => sinkFree_pure _

theorem sinkFree_afterStage (purpose : Purpose) (lock left : Nat) (σ : Stage) (id : String)
    (r : Except EngineError Turn) : SinkFree (afterStage v purpose lock left σ id r) := by
  cases r with
  | error err => exact sinkFree_endWith (sinkFree_conclude ..)
  | ok t =>
      rw [afterStage]
      cases t.next? σ with
      | none => exact sinkFree_endWith (sinkFree_conclude ..)
      | some σ' => exact sinkFree_pure _

theorem sinkFree_playStage (purpose : Purpose) (lock left : Nat) (σ : Stage) (t : Turn) :
    SinkFree (playStage v purpose lock left σ t) := by
  cases left with
  | zero =>
      rw [playStage]
      exact sinkFree_afterStage ..
  | succ left =>
      rw [playStage]
      split
      · refine sinkFree_bind (sinkFree_attempt t.sinkFree_ask) fun r => ?_
        rcases r with err | - | pending
        · exact sinkFree_afterStage ..
        · exact sinkFree_bind (sinkFree_attempt (t.sinkFree_hear none)) fun r =>
            sinkFree_afterStage ..
        · exact sinkFree_pure _
      · exact sinkFree_bind (sinkFree_attempt (t.sinkFree_perform σ)) fun r =>
          sinkFree_afterStage ..

theorem sinkFree_beginCall (call : Call) : SinkFree (beginCall v call) := by
  have henter : ∀ id, SinkFree (do return entering call id (← enterLock id v) : EngineM Phase) :=
    fun id => sinkFree_bind (sinkFree_enterLock id v) fun _ => sinkFree_pure _
  cases call with
  | create c =>
      refine sinkFree_bind (sinkFree_attempt (sinkFree_currentFlow _)) fun r => ?_
      cases r with
      | error err => exact sinkFree_pure _
      | ok f => exact sinkFree_bind (sinkFree_enterLock _ v) fun _ => sinkFree_pure _
  | input id text => exact henter id
  | terminate id reason => exact henter id
  | expire id now => exact henter id

theorem sinkFree_openInside (c : Caller) (f : Flow) (lock : Nat) :
    SinkFree (openInside v c f lock) := by
  refine sinkFree_bind (sinkFree_attempt (sinkFree_openSession f c)) fun r => ?_
  rcases r with err | s | ⟨s, t⟩
  · exact sinkFree_endWith (sinkFree_bind (sinkFree_leaveLock ..) fun _ => sinkFree_throw _)
  · exact sinkFree_endWith (sinkFree_bind (sinkFree_leaveLock ..) fun _ => sinkFree_pure _)
  · exact sinkFree_bind (sinkFree_enterLock s.id v) fun _ => sinkFree_pure _

theorem sinkFree_goInside (id : String) (lock : Nat) (call : Call) :
    SinkFree (goInside v id lock call) := by
  have hrefuse : ∀ r, SinkFree (goInside.refuse v id lock r) := fun r =>
    sinkFree_endWith (sinkFree_bind (sinkFree_leaveLock ..) fun _ =>
      sinkFree_bind (sinkFree_concludeInput id r) fun _ =>
        sinkFree_bind (sinkFree_served id) fun _ => sinkFree_pure _)
  cases call with
  | create c => exact sinkFree_pure _
  | input i text =>
      refine sinkFree_bind (sinkFree_attempt (sinkFree_admission id text)) fun r => ?_
      rcases r with err | t | status | -
      · exact hrefuse _
      · exact sinkFree_pure _
      · exact hrefuse _
      · exact hrefuse _
  | terminate i reason =>
      refine sinkFree_endWith ?_
      refine sinkFree_bind (sinkFree_attempt (sinkFree_endSession id reason)) fun r => ?_
      refine sinkFree_bind (sinkFree_leaveLock ..) fun _ => ?_
      refine sinkFree_bind (sinkFree_ofResult r) fun s => ?_
      exact sinkFree_bind (sinkFree_discard id) fun _ => sinkFree_pure _
  | expire i now =>
      refine sinkFree_endWith ?_
      refine sinkFree_bind (sinkFree_attempt (sinkFree_lapseIfDue id now)) fun r => ?_
      refine sinkFree_bind (sinkFree_leaveLock ..) fun _ => ?_
      refine sinkFree_bind (sinkFree_ofResult r) fun isDone => ?_
      cases isDone with
      | true => exact sinkFree_bind (sinkFree_discard id) fun _ => sinkFree_pure _
      | false => exact sinkFree_pure _

/-- No operation in progress looks at the sink when it goes on. -/
theorem sinkFree_step (p : Phase) : SinkFree (p.step v) := by
  cases p with
  | ready call => exact sinkFree_beginCall call
  | opening c f lock => exact sinkFree_openInside c f lock
  | settling c callerLock s t lock =>
      refine sinkFree_bind (sinkFree_attempt (sinkFree_storeSession s)) fun r => ?_
      cases r with
      | error err => exact sinkFree_endWith (sinkFree_conclude ..)
      | ok u => exact sinkFree_pure _
  | entering call id lock => exact sinkFree_goInside id lock call
  | playing purpose lock left σ t => exact sinkFree_playStage purpose lock left σ t
  | acting purpose lock left pending t =>
      exact sinkFree_bind (sinkFree_attempt (t.sinkFree_hear (some pending))) fun r =>
        sinkFree_afterStage ..
  | finished r => exact sinkFree_pure _

end Phase

theorem Task.step_withSink (t : Task) (e : Engine) : ∃ es, ∀ sink,
    t.step { e with sink } =
      ((t.step e).1, { (t.step e).2 with sink := Engine.toldTo es sink }) := by
  have hcan : ∀ sink, t.phase.canStep t.visitor { e with sink } =
      t.phase.canStep t.visitor e := fun _ => rfl
  cases hc : t.phase.canStep t.visitor e with
  | false =>
      refine ⟨[], fun sink => ?_⟩
      unfold Task.step
      rw [hcan, hc, Engine.toldTo_nil]
      rfl
  | true =>
      obtain ⟨es, hes⟩ := (t.phase.sinkFree_step (v := t.visitor)).same e
      refine ⟨es, fun sink => ?_⟩
      unfold Task.step
      rw [hcan, hc, hes]
      rcases (t.phase.step t.visitor).start e with ⟨err | p, e'⟩ <;> rfl

/-! ## Runs -/

namespace Service

/-- The service with another sink. -/
def withSink (w : Service) (sink : Option Sink) : Service :=
  { w with engine := { w.engine with sink } }

theorem make_withSink (w : Service) (m : Move) : ∃ es, ∀ sink,
    (w.withSink sink).make m = (w.make m).withSink (Engine.toldTo es sink) := by
  cases m with
  | turnClock now => exact ⟨[], fun sink => by rw [Engine.toldTo_nil]; rfl⟩
  | publish f =>
      have hpublish : SinkFree (Operation.publish f).perform :=
        sinkFree_bind (sinkFree_publishFlow f) fun _ => sinkFree_pure _
      obtain ⟨es, hes⟩ := hpublish.same w.engine
      refine ⟨es, fun sink => ?_⟩
      show (w.withSink sink).perform (.publish f) = _
      unfold Service.perform withSink
      rw [hes]
      rfl
  | drop retention now => exact ⟨[], fun sink => by rw [Engine.toldTo_nil]; rfl⟩
  | begin call => exact ⟨[], fun sink => by rw [Engine.toldTo_nil]; rfl⟩
  | proceed i =>
      show ∃ es, ∀ sink, (w.withSink sink).proceed i =
        (w.proceed i).withSink (Engine.toldTo es sink)
      have htasks : ∀ sink, (w.withSink sink).tasks = w.tasks := fun _ => rfl
      cases ht : w.tasks[i]? with
      | none =>
          refine ⟨[], fun sink => ?_⟩
          unfold Service.proceed
          rw [htasks, ht, Engine.toldTo_nil]
      | some t =>
          obtain ⟨es, hes⟩ := t.step_withSink w.engine
          refine ⟨es, fun sink => ?_⟩
          unfold Service.proceed
          rw [htasks, ht]
          dsimp only
          rw [show (w.withSink sink).engine = { w.engine with sink } from rfl, hes]
          rfl

/-- **The sink does not matter.**  A run is the same with any sink, and each sink is
told the same events. -/
theorem after_withSink (w : Service) (ms : List Move) : ∃ es, ∀ sink,
    (w.withSink sink).after ms = (w.after ms).withSink (Engine.toldTo es sink) := by
  induction ms generalizing w with
  | nil => exact ⟨[], fun sink => by rw [Engine.toldTo_nil]; rfl⟩
  | cons m ms ih =>
      obtain ⟨es, hes⟩ := w.make_withSink m
      obtain ⟨es', hes'⟩ := ih (w.make m)
      refine ⟨es ++ es', fun sink => ?_⟩
      rw [Engine.toldTo_append]
      show ((w.withSink sink).make m).after ms = _
      rw [hes, hes']
      rfl

/-- A run from the beginning is told to each sink in the same way. -/
theorem after_fresh_withSink (settings : Settings) (executor : Option Executor) (now : Instant)
    (ms : List Move) : ∃ es, ∀ sink, (fresh settings sink executor now).after ms =
      ((fresh settings none executor now).after ms).withSink (Engine.toldTo es sink) :=
  (fresh settings none executor now).after_withSink ms

end Service

end UssdFlows
