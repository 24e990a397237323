import UssdFlows.Proofs.Engine.Confined
import UssdFlows.Proofs.Engine.Sinks
import UssdFlows.Proofs.Engine.Smooth

/-!
# Actions that are carried out

When the action of a node is carried out, it is announced, its result is counted, and
the executor is asked if there is one.  Between two states of the engine some *calls* of
actions were made (`Engine.Calls`) if the announcements, the counts and the requests all
tell of these calls, one each, and of no others.

Calls add up (`Engine.Calls.trans`), so programs are gone through one after another.
All but one *abstain* (`EngineM.Abstaining`): they make no call.  The one exception is
the interpretation of an input at a node that has an action, which makes exactly one
(`Engine.calls_acted`).  A turn comes to such a node only to rest there, so a turn that
does not start at one abstains, whatever its length (`Turn.abstaining_run`).
-/

namespace UssdFlows

open EngineM

variable {α β : Type} {e e' e'' : Engine}

/-- An action that was carried out: what the executor was asked, and whether it has
succeeded. -/
structure ActionCall where
  request : ActionRequest
  succeeded : Bool

namespace ActionCall

/-- Whether the call is counted under a kind of node and a result. -/
def isCounted (kind : NodeKind) (succeeded : Bool) (c : ActionCall) : Bool :=
  c.request.node.kind == kind && c.succeeded == succeeded

/-- The session and the node that are announced. -/
def mark (c : ActionCall) : String × Option String := (c.request.session.id, some c.request.node.id)

end ActionCall

/-- The sessions and nodes of the actions that some events announce. -/
def Event.announced (es : List Event) : List (String × Option String) :=
  (es.filter fun event => event.type == .actionInitiated).map fun event =>
    (event.sessionId, event.node)

theorem Event.announced_append (es es' : List Event) :
    announced (es ++ es') = announced es ++ announced es' := by
  simp [announced]

/-- Whether a metric counts the results of actions. -/
def Metric.IsOfActions : Metric → Prop
  | actions .. => True
  | _ => False

namespace Engine

/-- From one state to the other these calls of actions were made, and no others. -/
structure Calls (calls : List ActionCall) (e e' : Engine) : Prop where
  executor : e'.executor = e.executor
  asked : e'.requests = e.requests ++ if e.executor.isSome then calls.map (·.request) else []
  counted : ∀ kind succeeded, e'.metrics.count (.actions kind succeeded) =
    e.metrics.count (.actions kind succeeded) + calls.countP (ActionCall.isCounted kind succeeded)
  told : ∃ es, e.Tells es e' ∧ Event.announced es = calls.map ActionCall.mark

theorem Calls.trans {calls calls' : List ActionCall} (h : e.Calls calls e')
    (h' : e'.Calls calls' e'') : e.Calls (calls ++ calls') e'' where
  executor := h'.executor.trans h.executor
  asked := by
    rw [h'.asked, h.asked, h.executor]
    cases e.executor.isSome <;> simp
  counted := fun kind succeeded => by
    rw [h'.counted, h.counted, List.countP_append]
    omega
  told := by
    obtain ⟨es, htold, hes⟩ := h.told
    obtain ⟨es', htold', hes'⟩ := h'.told
    exact ⟨es ++ es', htold.trans htold', by
      rw [Event.announced_append, hes, hes', List.map_append]⟩

/-- No call was made. -/
def Abstains (e e' : Engine) : Prop := e.Calls [] e'

theorem Abstains.trans (h : e.Abstains e') (h' : e'.Abstains e'') : e.Abstains e'' := Calls.trans h h'

theorem Abstains.calls {calls : List ActionCall} (h : e.Abstains e') (h' : e'.Calls calls e'') :
    e.Calls calls e'' := Calls.trans h h'

theorem Calls.abstains {calls : List ActionCall} (h : e.Calls calls e') (h' : e'.Abstains e'') :
    e.Calls calls e'' := by
  have hall := h.trans h'
  rwa [List.append_nil] at hall

/-- Nothing that has to do with actions has changed. -/
theorem abstains_of_same (hexecutor : e'.executor = e.executor)
    (hrequests : e'.requests = e.requests) (hmetrics : e'.metrics = e.metrics)
    (hsink : e'.sink = e.sink) : e.Abstains e' where
  executor := hexecutor
  asked := by rw [hrequests]; simp
  counted := fun kind succeeded => by rw [hmetrics]; simp
  told := ⟨[], tells_nil hsink, rfl⟩

theorem Abstains.refl (e : Engine) : e.Abstains e := abstains_of_same rfl rfl rfl rfl

theorem abstains_tally (e : Engine) {m : Metric} (n : Int) (hm : ¬ m.IsOfActions) :
    e.Abstains (e.tally m n) where
  executor := rfl
  asked := by
    show e.requests = _
    simp
  counted := fun kind succeeded => by
    have hne : m ≠ .actions kind succeeded := by
      rintro rfl
      exact hm trivial
    simp [tally, Metrics.count_add, hne]
  told := ⟨[], tells_nil rfl, rfl⟩

theorem abstains_announce (e : Engine) {type : EventType} (s : Session) (node : Option String)
    (data : List (String × Value)) (htype : type ≠ .actionInitiated) :
    e.Abstains (e.announce type s node data) where
  executor := rfl
  asked := by
    show e.requests = _
    simp
  counted := fun kind succeeded => by
    show e.metrics.count _ = _
    simp
  told := ⟨[.ofSession type s node data e.now], rfl, by
    simp [Event.announced, Event.ofSession, htype]⟩

/-- **One call.**  An interpretation of an input at a node with an action has that action
carried out once. -/
theorem calls_acted (e : Engine) {n : Node} (s : Session) (hn : n.isAction = true) :
    e.Calls [⟨⟨n, s⟩, (e.resultFor ⟨n, s⟩).succeeded⟩] (e.acted n s) where
  executor := (e.sameService_acted s n).executor
  asked := by
    rw [requests_acted, hn, Bool.true_and]
    cases e.executor.isSome <;> simp
  counted := fun kind succeeded => by
    have hmetrics : (e.acted n s).metrics =
        (if e.executor.isSome then e.metrics.add (.actionTimes n.kind) 1 else e.metrics).add
          (.actions n.kind (e.resultFor ⟨n, s⟩).succeeded) 1 := by
      rw [acted, if_pos hn]
      unfold counted requested
      cases e.executor.isSome <;> rfl
    have htimes : (if e.executor.isSome then e.metrics.add (.actionTimes n.kind) 1
        else e.metrics).count (.actions kind succeeded) =
        e.metrics.count (.actions kind succeeded) := by
      split
      · simp [Metrics.count_add]
      · rfl
    rw [hmetrics, Metrics.count_add, htimes, List.countP_singleton, ActionCall.isCounted]
    by_cases hk : n.kind = kind ∧ (e.resultFor ⟨n, s⟩).succeeded = succeeded
    · simp [hk.1, hk.2]
    · rw [if_neg fun heq => hk (by cases heq; exact ⟨rfl, rfl⟩)]
      have hnot : (n.kind == kind && (e.resultFor ⟨n, s⟩).succeeded == succeeded) = false := by
        rw [Bool.eq_false_iff]
        simpa using hk
      rw [hnot]
      simp
  told := by
    have hsink : (e.acted n s).sink = toldTo [.ofSession .actionInitiated s (some n.id)
        [("action", .text n.kind.text)] e.now] e.sink := by
      rw [acted, if_pos hn]
      unfold counted requested
      cases e.executor.isSome <;> rfl
    exact ⟨_, hsink, rfl⟩

theorem abstains_bind {x : EngineM α} {f : α → EngineM β} (hx : e.Abstains (x.start e).2)
    (hf : ∀ a e', x.start e = (.ok a, e') → e'.Abstains ((f a).start e').2) :
    e.Abstains ((x >>= f).start e).2 :=
  state_bind hx fun a e' hstart h => h.trans (hf a e' hstart)

/-- A section makes no difference. -/
theorem calls_hold {x : EngineM α} {calls : List ActionCall} (key : String)
    (h : ∀ locks, ({ e with locks } : Engine).Calls calls (x.start { e with locks }).2) :
    e.Calls calls ((hold key x).start e).2 := by
  have hinside : e.Abstains ((enterLock key solo).start e).2 := abstains_of_same rfl rfl rfl rfl
  rw [start_hold]
  exact (hinside.calls (h _)).abstains (abstains_of_same rfl rfl rfl rfl)

end Engine

/-! ## Programs that make no call -/

namespace EngineM

/-- A program that makes no call. -/
def Abstaining (x : EngineM α) : Prop := ∀ e : Engine, e.Abstains (x.start e).2

theorem Abstaining.bind {x : EngineM α} {f : α → EngineM β} (hx : Abstaining x)
    (hf : ∀ a, Abstaining (f a)) : Abstaining (x >>= f) :=
  fun e => Engine.abstains_bind (hx e) fun a e' _ => hf a e'

theorem abstaining_pure (a : α) : Abstaining (pure a) := fun e => .refl e

theorem abstaining_throw (err : EngineError) : Abstaining (throw err : EngineM α) := fun e => .refl e

theorem abstaining_throw_bind (err : EngineError) (f : α → EngineM β) :
    Abstaining (throw err >>= f) := fun e => .refl e

theorem abstaining_ofResult (r : Except EngineError α) : Abstaining (ofResult r) := fun e => .refl e

theorem abstaining_ofOption (err : EngineError) (o : Option α) : Abstaining (ofOption err o) := by
  cases o with
  | none => exact abstaining_throw err
  | some a => exact abstaining_pure a

theorem abstaining_get_bind {f : Engine → EngineM α} (hf : ∀ e, Abstaining (f e)) :
    Abstaining (get >>= f) := fun e => hf e e

theorem Abstaining.attempt {x : EngineM α} (h : Abstaining x) : Abstaining (EngineM.attempt x) := h

theorem abstaining_add {m : Metric} (n : Int) (hm : ¬ m.IsOfActions) : Abstaining (add m n) :=
  fun e => e.abstains_tally n hm

theorem abstaining_count {m : Metric} (hm : ¬ m.IsOfActions) : Abstaining (count m) :=
  abstaining_add 1 hm

theorem abstaining_emit {type : EventType} (s : Session) (node : Option String)
    (data : List (String × Value)) (htype : type ≠ .actionInitiated) :
    Abstaining (emit type s node data) := fun e => e.abstains_announce s node data htype

theorem abstaining_session (id : String) : Abstaining (session id) :=
  abstaining_get_bind fun _ => abstaining_ofOption _ _

theorem abstaining_served (id : String) : Abstaining (served id) :=
  abstaining_get_bind fun _ => abstaining_ofOption _ _

theorem abstaining_flowOf (s : Session) : Abstaining (flowOf s) :=
  abstaining_get_bind fun _ => abstaining_ofOption _ _

theorem abstaining_nodeOf (f : Flow) (node : Option String) : Abstaining (nodeOf f node) :=
  abstaining_ofOption _ _

theorem abstaining_change (id : String) (f : Session → Session) : Abstaining (change id f) :=
  Abstaining.bind (fun _ => Engine.abstains_of_same rfl rfl rfl rfl) fun _ => abstaining_served id

theorem abstaining_discard (key : String) : Abstaining (discard key) :=
  fun _ => Engine.abstains_of_same rfl rfl rfl rfl

theorem Abstaining.hold {x : EngineM α} (h : Abstaining x) (key : String) :
    Abstaining (EngineM.hold key x) := fun _ => Engine.calls_hold key fun _ => h _

end EngineM

/-! ## Turns -/

namespace Turn

theorem abstaining_recordInput (t : Turn) : Abstaining t.recordInput :=
  abstaining_get_bind fun _ => (abstaining_change _ _).bind fun _ =>
    (abstaining_ofOption _ _).bind fun _ => (abstaining_change _ _).bind fun _ =>
      (abstaining_emit _ _ _ (by nofun)).bind fun _ => abstaining_pure t

/-- A node without an action is interpreted, and nobody is asked. -/
theorem abstaining_dispatch {t : Turn} (ht : t.node.isAction = false) : Abstaining t.dispatch := by
  have hruns : ∀ h : Handler, h.runsAction t.node = false := fun h => by
    rw [Handler.runsAction, ht, Bool.and_false]
  have hask : Abstaining t.ask := by
    refine (abstaining_served _).bind fun s => ?_
    rw [ht, if_neg Bool.false_ne_true]
    refine abstaining_get_bind fun e => ?_
    cases interpreter e t.node with
    | inr _ => exact abstaining_pure _
    | inl h =>
        simp only [hruns, Bool.false_and, Bool.false_eq_true, if_false]
        exact abstaining_pure _
  refine hask.bind fun pending => abstaining_get_bind fun e => (abstaining_served _).bind fun s => ?_
  cases interpreter e t.node with
  | inr o => exact (abstaining_ofResult _).bind fun _ => abstaining_pure _
  | inl h =>
      simp only [hruns, Bool.false_eq_true, if_false]
      exact (abstaining_ofResult _).bind fun _ => abstaining_pure _

theorem abstaining_navigate (id : String) (f : Flow) (node : String) :
    Abstaining (navigate id f node) :=
  (abstaining_nodeOf f _).bind fun n => abstaining_get_bind fun _ =>
    (abstaining_change _ _).bind fun _ => (abstaining_count (by nofun)).bind fun _ =>
      (abstaining_emit _ _ _ (by nofun)).bind fun _ => abstaining_pure n

theorem abstaining_advance (t : Turn) : Abstaining t.advance := by
  rw [advance]
  cases t.outcome with
  | none => exact abstaining_throw _
  | some o =>
      dsimp only
      cases o.target? with
      | none => exact abstaining_throw _
      | some target =>
          exact (abstaining_navigate _ _ _).bind fun n =>
            (abstaining_change _ _).bind fun _ => abstaining_pure _

theorem abstaining_finishSession (id : String) : Abstaining (finishSession id) := by
  refine (abstaining_served id).bind fun s => ?_
  cases s.isActive with
  | false => exact abstaining_throw_bind _ _
  | true =>
      refine abstaining_get_bind fun e => (abstaining_change _ _).bind fun s' => ?_
      have hused : Abstaining (modify fun e : Engine =>
          { e with registry := e.registry.countUse s'.flowId e.now } : EngineM Unit) :=
        fun _ => Engine.abstains_of_same rfl rfl rfl rfl
      exact hused.bind fun _ => (abstaining_add _ (by nofun)).bind fun _ =>
        (abstaining_count (by nofun)).bind fun _ =>
          (abstaining_emit _ _ _ (by nofun)).bind fun _ => abstaining_pure s'

theorem abstaining_complete (t : Turn) : Abstaining t.complete := by
  have hfinish : ∀ f : Session → Turn, Abstaining (do
      let s ← finishSession t.sessionId
      return f s : EngineM Turn) := fun f =>
    (abstaining_finishSession _).bind fun s => abstaining_pure _
  rw [complete]
  cases t.outcome with
  | none => exact hfinish _
  | some o => exact (abstaining_change _ _).bind fun _ => hfinish _

theorem abstaining_reprompt (t : Turn) : Abstaining t.reprompt :=
  (abstaining_served _).bind fun _ => (abstaining_emit _ _ _ (by nofun)).bind fun _ => abstaining_pure _

theorem abstaining_respond (t : Turn) : Abstaining t.respond :=
  (abstaining_served _).bind fun _ => abstaining_pure _

/-- No stage makes a call but the interpretation at a node that has an action. -/
theorem abstaining_perform (t : Turn) (σ : Stage) (h : σ = .dispatch → t.node.isAction = false) :
    Abstaining (t.perform σ) := by
  cases σ with
  | recordInput => exact t.abstaining_recordInput
  | dispatch => exact abstaining_dispatch (h rfl)
  | advance => exact t.abstaining_advance
  | complete => exact t.abstaining_complete
  | reprompt => exact t.abstaining_reprompt
  | respond => exact t.abstaining_respond

/-- The turn is not about to have its input interpreted at a node that has an action. -/
def IsQuiet (t : Turn) (σ : Stage) : Prop :=
  σ = .recordInput ∨ σ = .dispatch → t.node.isAction = false

theorem IsSmooth.isQuiet {t : Turn} {σ : Stage} (h : t.IsSmooth σ) : t.IsQuiet σ := fun hσ =>
  Node.not_isAction_of_isTransient (h.2 (hσ.resolve_left h.1))

/-- A quiet turn stays so, since past its first node it meets conditionals alone. -/
theorem IsQuiet.next {t t' : Turn} {σ σ' : Stage} (h : t.IsQuiet σ) (hc : t.Continues σ t')
    (hn : t'.next? σ = some σ') : t'.IsQuiet σ' := by
  by_cases hσ : σ = .recordInput
  · subst hσ
    intro _
    rw [hc.node (by decide)]
    exact h (.inl rfl)
  · exact (isSmooth_next hσ hn).isQuiet

/-- **Quiet turns.**  A quiet turn makes no call, however many nodes it passes. -/
theorem abstaining_run (limit : Nat) {σ : Stage} {t : Turn} (h : t.IsQuiet σ) :
    Abstaining (run limit σ t) := by
  induction limit generalizing σ t with
  | zero => exact abstaining_throw _
  | succ limit ih =>
      intro e
      have hfirst := t.abstaining_perform σ (fun hσ => h (.inr hσ)) e
      refine Engine.abstains_bind hfirst fun t' e' hstart => ?_
      have hc : t.Continues σ t' := t.yields_perform σ e t' (by rw [hstart])
      cases hn : t'.next? σ with
      | none => exact .refl e'
      | some σ' => exact ih (h.next hc hn) e'

/-- A turn is quiet from the start if it has no input, or meets a node without an action. -/
theorem abstaining_play {t : Turn} (h : t.input = none ∨ t.node.isAction = false) :
    Abstaining t.play :=
  abstaining_run _ (h.elim (fun hinput => (isSmooth_entry hinput).isQuiet) fun hnode _ => hnode)

end Turn

/-! ## Whole operations -/

theorem abstaining_currentFlow (flowId : String) : Abstaining (currentFlow flowId) :=
  abstaining_get_bind fun _ => abstaining_ofOption _ _

theorem abstaining_openSession (f : Flow) (c : Caller) : Abstaining (openSession f c) := by
  have hnew : Abstaining (newSession f c) :=
    abstaining_get_bind fun _ => (abstaining_ofOption _ _).bind fun _ =>
      Abstaining.bind (fun _ => Engine.abstains_of_same rfl rfl rfl rfl) fun _ => abstaining_pure _
  refine abstaining_get_bind fun e => ?_
  cases e.store.findLive? c.flowId c.phoneNumber c.ussdCode e.now with
  | some s => exact abstaining_pure _
  | none => exact hnew.bind fun s => (abstaining_nodeOf _ _).bind fun n => abstaining_pure _

theorem abstaining_storeSession (s : Session) : Abstaining (storeSession s) :=
  abstaining_get_bind fun _ => (abstaining_ofResult _).bind fun _ =>
    Abstaining.bind (fun _ => Engine.abstains_of_same rfl rfl rfl rfl) fun _ =>
      (abstaining_add _ (by nofun)).bind fun _ => (abstaining_count (by nofun)).bind fun _ =>
        abstaining_emit _ _ _ (by nofun)

theorem abstaining_settleSession (s : Session) {t : Turn} (ht : t.input = none) :
    Abstaining (settleSession s t) :=
  Abstaining.hold ((abstaining_storeSession s).bind fun _ =>
    (Turn.abstaining_play (.inl ht)).bind fun _ => abstaining_served _) s.id

/-- The turn of a session that is opened has no input. -/
theorem abstaining_findOrOpen (f : Flow) (c : Caller) : Abstaining (findOrOpen f c) := fun e =>
  Engine.abstains_bind (abstaining_openSession f c e) fun opening e' hopen => by
    cases opening with
    | resumed s => exact abstaining_pure _ e'
    | opened s t =>
        obtain ⟨-, -, expiry, n, -, -, rfl⟩ := openSession_opened hopen
        exact (abstaining_settleSession s rfl).bind (fun _ => abstaining_pure _) e'

theorem abstaining_createSession (c : Caller) : Abstaining (createSession c) := by
  refine (abstaining_currentFlow _).bind fun f =>
    ((abstaining_findOrOpen f c).hold c.key).bind fun opening => ?_
  dsimp only
  split
  · exact (abstaining_discard _).bind fun _ => abstaining_pure _
  · exact abstaining_pure _

theorem abstaining_lapse (id : String) (now : Instant) : Abstaining (lapse id now) :=
  (abstaining_change _ _).bind fun _ => (abstaining_add _ (by nofun)).bind fun _ =>
    (abstaining_count (by nofun)).bind fun _ =>
      abstaining_get_bind fun _ => abstaining_emit _ _ _ (by nofun)

theorem abstaining_terminateSession (id reason : String) :
    Abstaining (terminateSession id reason) := by
  have hend : Abstaining (endSession id reason) := by
    refine (abstaining_session id).bind fun s => ?_
    cases s.isActive with
    | false => exact abstaining_throw_bind _ _
    | true =>
        exact abstaining_get_bind fun _ => (abstaining_change _ _).bind fun s =>
          (abstaining_add _ (by nofun)).bind fun _ => (abstaining_count (by nofun)).bind fun _ =>
            (abstaining_emit _ _ _ (by nofun)).bind fun _ => abstaining_pure s
  exact (hend.hold id).bind fun s => (abstaining_discard id).bind fun _ => abstaining_pure s

theorem abstaining_expireSession (id : String) (now : Instant) :
    Abstaining (expireSession id now) := by
  have hlapse : Abstaining (lapseIfDue id now) := by
    refine abstaining_get_bind fun e => ?_
    cases e.store.get? id with
    | none => exact abstaining_pure _
    | some s =>
        dsimp only
        split
        · exact (abstaining_lapse id now).bind fun _ => abstaining_pure _
        · exact abstaining_pure _
  refine (hlapse.hold id).bind fun isDone => ?_
  cases isDone with
  | true => exact (abstaining_discard id).bind fun _ => abstaining_pure true
  | false => exact abstaining_pure false

theorem abstaining_expireEach (now : Instant) (ids : List String) :
    Abstaining (expireEach now ids) := by
  induction ids with
  | nil => exact abstaining_pure 0
  | cons id rest ih =>
      exact (abstaining_expireSession id now).bind fun _ => ih.bind fun _ => abstaining_pure _

theorem abstaining_sweep (retention : Int) (now : Instant) : Abstaining (sweep retention now) :=
  abstaining_get_bind fun _ => (abstaining_expireEach now _).bind fun count =>
    Abstaining.bind (fun _ => Engine.abstains_of_same rfl rfl rfl rfl) fun _ => abstaining_pure count

/-! ## Inputs -/

theorem abstaining_admission (id input : String) : Abstaining (admission id input) := by
  refine (abstaining_session id).bind fun s => abstaining_get_bind fun e => ?_
  cases s.isActive with
  | false => exact abstaining_pure _
  | true =>
      cases s.isPastExpiry e.now with
      | true => exact (abstaining_lapse id e.now).bind fun _ => abstaining_pure _
      | false =>
          exact (abstaining_flowOf s).bind fun f => (abstaining_nodeOf f _).bind fun n =>
            abstaining_pure _

/-- The last part of the handling of an input. -/
theorem abstaining_answered (j : String) (r : Except EngineError Answered) :
    Abstaining (do match ← ofResult r with
      | .inl result => return result
      | .inr (_, status) => throw (.notActive j status) : EngineM Navigation) := by
  refine (abstaining_ofResult r).bind fun a => ?_
  rcases a with shown | ⟨outcome, status⟩
  · exact abstaining_pure shown
  · exact abstaining_throw _

theorem abstaining_concludeInput (id : String) (r : Except EngineError Answered) :
    Abstaining (concludeInput id r) := by
  refine (abstaining_count (by nofun)).bind fun _ => (abstaining_count (by nofun)).bind fun _ => ?_
  have hend := abstaining_answered id r
  dsimp only
  split
  · exact (abstaining_discard id).bind fun _ => hend
  · exact hend

/-- The calls of an input are those that are made inside the section of its session. -/
theorem Engine.calls_processInput {calls : List ActionCall} {id input : String}
    (h : ∀ locks, ({ e with locks } : Engine).Calls calls
      ((answerInput id input).start { e with locks }).2) :
    e.Calls calls ((processInput id input).start e).2 := by
  rw [processInput, start_bind_of_ok (start_attempt ..)]
  exact (calls_hold id h).abstains (abstaining_concludeInput id _ _)

end UssdFlows
