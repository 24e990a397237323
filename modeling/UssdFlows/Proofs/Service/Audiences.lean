import UssdFlows.Proofs.Engine.Sinks

/-!
# It makes no difference who listens

Sinks may be bounded, fail at any of the events they are handed, or pass events
on to others.  None of this is felt in the service: with any two sinks, or with
none, it gives the same answers and failures to all that it is asked, and has
the same flows, sessions, locks and counts afterwards.

* No whole operation looks at the sink (`sinkFree_processInput` and the others), and
  so no command does, whatever it gives back (`Command.sinkFree_answer`).
* A sink inside of compound sinks, however deep, is handed the same events as one
  that stands alone (`Sink.member?_foldl_publish`).

Both meet in `Service.audience_makes_no_difference`, for commands one after
another and for operations side by side.
-/

namespace UssdFlows

open EngineM

variable {α : Type}

/-! ## Whole operations -/

theorem sinkFree_hold (key : String) {body : EngineM α} (h : SinkFree body) :
    SinkFree (hold key body) :=
  sinkFree_bind (sinkFree_enterLock key _) fun _ =>
    sinkFree_bind (sinkFree_attempt h) fun _ =>
      sinkFree_bind (sinkFree_leaveLock ..) fun _ => sinkFree_ofResult _

theorem Turn.sinkFree_run (limit : Nat) (σ : Stage) (t : Turn) : SinkFree (run limit σ t) := by
  induction limit generalizing σ t with
  | zero => exact sinkFree_throw _
  | succ limit ih =>
      refine sinkFree_bind (t.sinkFree_perform σ) fun t' => ?_
      cases t'.next? σ with
      | none => exact sinkFree_pure t'
      | some σ' => exact ih σ' t'

theorem Turn.sinkFree_play (t : Turn) : SinkFree t.play := sinkFree_run ..

theorem sinkFree_settleSession (s : Session) (t : Turn) : SinkFree (settleSession s t) :=
  sinkFree_hold s.id (sinkFree_bind (sinkFree_storeSession s) fun _ =>
    sinkFree_bind t.sinkFree_play fun t' => sinkFree_served t'.sessionId)

theorem sinkFree_findOrOpen (f : Flow) (c : Caller) : SinkFree (findOrOpen f c) := by
  refine sinkFree_bind (sinkFree_openSession f c) fun opening => ?_
  cases opening with
  | resumed s => exact sinkFree_pure _
  | opened s t => exact sinkFree_bind (sinkFree_settleSession s t) fun _ => sinkFree_pure _

theorem sinkFree_createSession (c : Caller) : SinkFree (createSession c) := by
  refine sinkFree_bind (sinkFree_currentFlow _) fun f => ?_
  refine sinkFree_bind (sinkFree_hold c.key (sinkFree_findOrOpen f c)) fun opening => ?_
  cases opening.2 with
  | false => exact sinkFree_pure _
  | true => exact sinkFree_bind (sinkFree_discard _) fun _ => sinkFree_pure _

theorem sinkFree_answerInput (id text : String) : SinkFree (answerInput id text) := by
  refine sinkFree_bind (sinkFree_admission id text) fun admission => ?_
  cases admission with
  | rejected status => exact sinkFree_pure _
  | lapsed => exact sinkFree_pure _
  | admitted t =>
      exact sinkFree_bind t.sinkFree_play fun t' =>
        sinkFree_bind (sinkFree_navigationOf t') fun _ => sinkFree_pure _

theorem sinkFree_processInput (id text : String) : SinkFree (processInput id text) :=
  sinkFree_bind (sinkFree_attempt (sinkFree_hold id (sinkFree_answerInput id text))) fun r =>
    sinkFree_concludeInput id r

theorem sinkFree_terminateSession (id reason : String) :
    SinkFree (terminateSession id reason) :=
  sinkFree_bind (sinkFree_hold id (sinkFree_endSession id reason)) fun _ =>
    sinkFree_bind (sinkFree_discard id) fun _ => sinkFree_pure _

theorem sinkFree_expireSession (id : String) (now : Instant) :
    SinkFree (expireSession id now) := by
  refine sinkFree_bind (sinkFree_hold id (sinkFree_lapseIfDue id now)) fun isDone => ?_
  cases isDone with
  | false => exact sinkFree_pure _
  | true => exact sinkFree_bind (sinkFree_discard id) fun _ => sinkFree_pure _

theorem sinkFree_expireEach (now : Instant) (ids : List String) :
    SinkFree (expireEach now ids) := by
  induction ids with
  | nil => exact sinkFree_pure _
  | cons id rest ih =>
      exact sinkFree_bind (sinkFree_expireSession id now) fun _ =>
        sinkFree_bind ih fun _ => sinkFree_pure _

theorem sinkFree_sweep (retention : Int) (now : Instant) : SinkFree (sweep retention now) :=
  sinkFree_get_bind (fun e => sinkFree_bind (sinkFree_expireEach now (e.store.lapsed now))
    fun _ => sinkFree_bind (sinkFree_of_silent fun _ _ => rfl) fun _ => sinkFree_pure _)
    fun _ _ => rfl

theorem sinkFree_completeSession (id : String) : SinkFree (completeSession id) :=
  sinkFree_bind (sinkFree_session id) fun _ => Turn.sinkFree_finishSession id

theorem sinkFree_moveSession (id node : String) : SinkFree (moveSession id node) :=
  sinkFree_bind (sinkFree_session id) fun s => sinkFree_bind (sinkFree_flowOf s) fun f =>
    sinkFree_bind (Turn.sinkFree_navigate id f node) fun _ =>
      sinkFree_bind (sinkFree_session id) fun _ => sinkFree_pure _

theorem sinkFree_screenOf (s : Session) : SinkFree (screenOf s) :=
  sinkFree_bind (sinkFree_flowOf s) fun _ => sinkFree_pure _

theorem sinkFree_sessionStats (flowId : Option String) : SinkFree (sessionStats flowId) :=
  sinkFree_get_bind (fun _ => sinkFree_pure _) fun _ _ => rfl

/-! ## Commands and their answers -/

/-- What is given back to whoever asked something of the engine. -/
inductive Answer where
  | done
  | report (r : Report)
  | flow (f : Flow)
  | session (s : Session)
  | navigation (r : Navigation)
  | truth (b : Bool)
  | number (n : Nat)
  | moved (s : Session) (n : Node)
  | screen (text : String)
  | stats (s : SessionStats)

/-- Performs an operation and gives its result back. -/
def Operation.answer : Operation → EngineM Answer
  | publish f => do return .flow (← publishFlow f)
  | create c => do return .session (← createSession c)
  | input id text => do return .navigation (← processInput id text)
  | terminate id reason => do return .session (← terminateSession id reason)
  | expire id now => do return .truth (← expireSession id now)
  | sweep retention now => do return .number (← UssdFlows.sweep retention now)
  | op => do op.perform; return .done

/-- All that can be asked of the engine at once. -/
inductive Command where
  | operation (op : Operation)
  /-- Examines a flow without publishing it. -/
  | examine (f : Flow)
  | find (sessionId : String)
  /-- The version of a flow that a session is pinned to. -/
  | pinned (s : Session)
  | complete (sessionId : String)
  | move (sessionId nodeId : String)
  | screen (sessionId : String)
  | stats (flowId : Option String)
  /-- Publishes an event. -/
  | tell (type : EventType) (s : Session) (node : Option String) (data : List (String × Value))

namespace Command

/-- Does what is asked. -/
def answer : Command → EngineM Answer
  | operation op => op.answer
  | examine f => do return .report (← UssdFlows.examine f)
  | find id => do return .session (← session id)
  | pinned s => do return .flow (← flowOf s)
  | complete id => do return .session (← completeSession id)
  | move id node => do
    let (s, n) ← moveSession id node
    return .moved s n
  | screen id => do return .screen (← screenOf (← session id))
  | stats flowId => do return .stats (← sessionStats flowId)
  | tell type s node data => do
    emit type s node data
    return .done

/-- No command looks at the sink. -/
theorem sinkFree_answer (c : Command) : SinkFree c.answer := by
  have hgive : ∀ {β : Type} {x : EngineM β} (f : β → Answer), SinkFree x →
      SinkFree (do return f (← x) : EngineM Answer) :=
    fun f h => sinkFree_bind h fun a => sinkFree_pure (f a)
  have hwrite : ∀ f : Engine → Engine, (∀ e sink, f { e with sink } = { f e with sink }) →
      SinkFree (do modify f; return Answer.done : EngineM Answer) :=
    fun f hf => sinkFree_bind (sinkFree_of_silent fun e sink => by
      show (Except.ok (), f { e with sink }) = _
      rw [hf]
      rfl) fun _ => sinkFree_pure _
  cases c with
  | operation op =>
      cases op with
      | turnClock now => exact hwrite _ fun _ _ => rfl
      | publish f => exact hgive _ (sinkFree_publishFlow f)
      | create c => exact hgive _ (sinkFree_createSession c)
      | input id text => exact hgive _ (sinkFree_processInput id text)
      | terminate id reason => exact hgive _ (sinkFree_terminateSession id reason)
      | expire id now => exact hgive _ (sinkFree_expireSession id now)
      | sweep retention now => exact hgive _ (sinkFree_sweep retention now)
      | drop retention now => exact hwrite _ fun _ _ => rfl
  | examine f => exact hgive _ (sinkFree_examine f)
  | find id => exact hgive _ (sinkFree_session id)
  | pinned s => exact hgive _ (sinkFree_flowOf s)
  | complete id => exact hgive _ (sinkFree_completeSession id)
  | move id node => exact sinkFree_bind (sinkFree_moveSession id node) fun _ => sinkFree_pure _
  | screen id =>
      exact sinkFree_bind (sinkFree_session id) fun s => hgive _ (sinkFree_screenOf s)
  | stats flowId => exact hgive _ (sinkFree_sessionStats flowId)
  | tell type s node data => exact sinkFree_bind (sinkFree_emit ..) fun _ => sinkFree_pure _

end Command

/-- What comes of an operation does not depend on whether its result is given back. -/
theorem Operation.start_perform (op : Operation) (e : Engine) :
    op.perform.start e = ((op.answer.start e).1.map fun _ => (), (op.answer.start e).2) := by
  have hgive : ∀ {β : Type} (x : EngineM β) (f : β → Answer),
      (do let _ ← x : EngineM Unit).start e =
        (((do return f (← x) : EngineM Answer).start e).1.map fun _ => (),
          ((do return f (← x) : EngineM Answer).start e).2) := by
    intro β x f
    rw [start_bind, start_bind]
    rcases x.start e with ⟨err | a, e'⟩ <;> rfl
  cases op with
  | publish f => exact hgive _ .flow
  | create c => exact hgive _ .session
  | input id text => exact hgive _ .navigation
  | terminate id reason => exact hgive _ .session
  | expire id now => exact hgive _ .truth
  | sweep retention now => exact hgive _ .number
  | turnClock now => rfl
  | drop retention now => rfl

/-! ## The service at work -/

namespace Service

/-- What is done with a service next. -/
inductive Act where
  | command (c : Command)
  /-- An operation begins that is to run beside others. -/
  | begin (call : Call)
  /-- The operation at some place goes on. -/
  | proceed (i : Nat)

/-- The flows published once a command has been answered. -/
def publishedBy (published : List Flow) : Command → Except EngineError Answer → List Flow
  | .operation op, r => publishedAfter published op (r.map fun _ => ())
  | _, _ => published

/-- Does one thing, and gives back what a command answers.  The results of
operations that run side by side are kept with them. -/
def act (w : Service) : Act → List (Except EngineError Answer) × Service
  | .command c =>
    let r := c.answer.start w.engine
    ([r.1], { w with engine := r.2, published := publishedBy w.published c r.1 })
  | .begin call => ([], w.begin call)
  | .proceed i => ([], w.proceed i)

/-- Does one thing after another; all answers, and the service in the end. -/
def actAll (w : Service) : List Act → List (Except EngineError Answer) × Service
  | [] => ([], w)
  | a :: rest =>
    let (answers, w) := w.act a
    let (more, w) := w.actAll rest
    (answers ++ more, w)

theorem act_withSink (w : Service) (a : Act) : ∃ es, ∀ sink,
    (w.withSink sink).act a =
      ((w.act a).1, (w.act a).2.withSink (Engine.toldTo es sink)) := by
  cases a with
  | command c =>
      obtain ⟨es, hes⟩ := c.sinkFree_answer.same w.engine
      refine ⟨es, fun sink => ?_⟩
      unfold act withSink
      dsimp only
      rw [hes]
  | begin call => exact ⟨[], fun sink => by rw [Engine.toldTo_nil]; rfl⟩
  | proceed i =>
      obtain ⟨es, hes⟩ := w.make_withSink (.proceed i)
      exact ⟨es, fun sink => congrArg (Prod.mk []) (hes sink)⟩

theorem actAll_withSink (w : Service) (acts : List Act) : ∃ es, ∀ sink,
    (w.withSink sink).actAll acts =
      ((w.actAll acts).1, (w.actAll acts).2.withSink (Engine.toldTo es sink)) := by
  induction acts generalizing w with
  | nil => exact ⟨[], fun sink => by rw [Engine.toldTo_nil]; rfl⟩
  | cons a acts ih =>
      obtain ⟨es, hes⟩ := w.act_withSink a
      obtain ⟨es', hes'⟩ := ih (w.act a).2
      refine ⟨es ++ es', fun sink => ?_⟩
      simp only [actAll, hes, hes', Engine.toldTo_append]

end Service

/-! ## Members of compound sinks -/

namespace Sink

/-- The sink at a place inside of compound sinks: the numbers of the members that
lead to it, from outside to inside. -/
def member? : List Nat → Sink → Option Sink
  | [], s => some s
  | i :: place, all members => members[i]?.bind (member? place)
  | _ :: _, _ => none

/-- Each member, however deep, is handed the event, whether or not others fail. -/
theorem member?_publish (place : List Nat) (s : Sink) (e : Event) :
    (s.publish e).member? place = (s.member? place).map fun m => m.publish e := by
  induction place generalizing s with
  | nil => rfl
  | cons i place ih =>
      cases s with
      | all members =>
          rw [publish_all, member?, member?, List.getElem?_map]
          cases members[i]? with
          | none => rfl
          | some m => exact ih m
      | memory limit kept => rfl
      | log written => rfl
      | failing fails handed => rfl

theorem member?_foldl_publish (place : List Nat) (s : Sink) (es : List Event) :
    (es.foldl publish s).member? place = (s.member? place).map fun m => es.foldl publish m := by
  induction es generalizing s with
  | nil => simp
  | cons e es ih =>
      rw [List.foldl_cons, ih, member?_publish, Option.map_map]
      rfl

/-- What is cut off first need not be cut off later. -/
theorem latest_append (limit : Option Int) (xs ys : List Event) :
    latest limit (latest limit xs ++ ys) = latest limit (xs ++ ys) := by
  cases limit with
  | none => rfl
  | some n =>
      have hdrop : xs.drop (xs.length - n.toNat) ++ ys =
          (xs ++ ys).drop (xs.length - n.toNat) :=
        (List.drop_append_of_le_length (Nat.sub_le ..)).symm
      simp only [latest]
      rw [hdrop, List.drop_drop, List.length_drop, List.length_append]
      congr 1
      omega

/-- A memory keeps the latest of all events it was handed. -/
theorem foldl_publish_memory {limit : Option Int} {kept : List Event}
    (h : latest limit kept = kept) (es : List Event) :
    es.foldl publish (memory limit kept) = memory limit (latest limit (kept ++ es)) := by
  induction es generalizing kept with
  | nil => rw [List.append_nil, h]; rfl
  | cons e es ih =>
      have hlatest : latest limit (latest limit (kept ++ [e])) = latest limit (kept ++ [e]) := by
        simpa using latest_append limit (kept ++ [e]) []
      rw [List.foldl_cons, show (memory limit kept).publish e =
        memory limit (latest limit (kept ++ [e])) from rfl, ih hlatest, latest_append,
        List.append_assoc, List.singleton_append]

/-- A sink that only keeps what it is handed, however it does that, has got all of it. -/
theorem foldl_publish_of_append {keeping : List Event → Sink}
    (h : ∀ kept e, (keeping kept).publish e = keeping (kept ++ [e])) (kept es : List Event) :
    es.foldl publish (keeping kept) = keeping (kept ++ es) := by
  induction es generalizing kept with
  | nil => rw [List.foldl_nil, List.append_nil]
  | cons e es ih => rw [List.foldl_cons, h, ih, List.append_assoc, List.singleton_append]

theorem foldl_publish_log (written es : List Event) :
    es.foldl publish (log written) = log (written ++ es) :=
  foldl_publish_of_append (fun _ _ => rfl) written es

/-- A sink that fails has been handed the event all the same. -/
theorem foldl_publish_failing (fails : Arrival → Bool) (handed es : List Event) :
    es.foldl publish (failing fails handed) = failing fails (handed ++ es) :=
  foldl_publish_of_append (fun _ _ => rfl) handed es

end Sink

/-! ## Audiences -/

namespace Service

/-- **Listeners.**  Whatever is done with a service, and whatever its sink is,

* the answers and failures, and the service in the end but for its sink, are the
  same as with any other sink and as with none;
* there is one list of events, those that a memory without limit keeps if it is
  the only sink, that all sinks are told;
* a sink at any place inside of compound sinks is handed the events of this list,
  each once and in this order, whichever other members fail at whichever of
  them: a memory keeps the latest of them, and a log or a sink of another kind
  has got all of them. -/
theorem audience_makes_no_difference (w : Service) (acts : List Act) :
    (∀ k k' : Option Sink,
      ((w.withSink k).actAll acts).1 = ((w.withSink k').actAll acts).1 ∧
        ((w.withSink k).actAll acts).2.withSink none =
          ((w.withSink k').actAll acts).2.withSink none) ∧
    ∃ es : List Event,
      ((w.withSink (some (.memory none []))).actAll acts).2.engine.sink =
          some (.memory none es) ∧
        ∀ k : Sink, ∃ k' : Sink,
          ((w.withSink (some k)).actAll acts).2.engine.sink = some k' ∧
            (∀ place, k'.member? place =
              (k.member? place).map fun m => es.foldl Sink.publish m) ∧
            (∀ place limit kept, k.member? place = some (.memory limit kept) →
              Sink.latest limit kept = kept →
              k'.member? place = some (.memory limit (Sink.latest limit (kept ++ es)))) ∧
            (∀ place written, k.member? place = some (.log written) →
              k'.member? place = some (.log (written ++ es))) ∧
            ∀ place fails handed, k.member? place = some (.failing fails handed) →
              k'.member? place = some (.failing fails (handed ++ es)) := by
  obtain ⟨es, hes⟩ := w.actAll_withSink acts
  refine ⟨fun k k' => ?_, es, ?_, fun k => ⟨es.foldl Sink.publish k, ?_, ?_, ?_, ?_, ?_⟩⟩
  · rw [hes k, hes k']
    exact ⟨rfl, rfl⟩
  · rw [hes]
    exact Engine.toldTo_memory es []
  · rw [hes]
    rfl
  · exact fun place => Sink.member?_foldl_publish place k es
  · intro place limit kept hplace hkept
    rw [Sink.member?_foldl_publish, hplace, Option.map_some, Sink.foldl_publish_memory hkept]
  · intro place written hplace
    rw [Sink.member?_foldl_publish, hplace, Option.map_some, Sink.foldl_publish_log]
  · intro place fails handed hplace
    rw [Sink.member?_foldl_publish, hplace, Option.map_some, Sink.foldl_publish_failing]

end Service

end UssdFlows
