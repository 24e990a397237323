import UssdFlows.Proofs.Engine.Inputs
import UssdFlows.Proofs.Engine.Tales
import UssdFlows.Proofs.Engine.Tidy
import UssdFlows.Proofs.Flow.Settling
import UssdFlows.Proofs.Service.Certified

/-!
# Turns come to what their flow says

A turn goes from stage to stage: it interprets, moves, interprets again while it is
at a conditional, and so on.  In the end it has come to what can be said of it
without any stages (`Flow.Follows`): its session has the variables and is at the
node said there, the caller is shown what belongs to that end, and no node has been
interpreted but the one where the session was and the conditionals on its way.

Each stage is taken on its own (`Turn.over_respond` and the lemmas after it).  The
way along conditionals is an induction over how the session settles
(`Turn.start_run_of_settles`), in which every hop is paid for by the rank of its node.
From this follow what an input comes to (`Engine.Awaits.start_processInput`) and what
the opening of a session does (`Engine.Sound.start_createSession`), and both hold in
every state of the service (`Service.Reachable.turns_settle`).
-/

namespace UssdFlows

open EngineM

/-! ## What an end shows -/

namespace Ending

/-- The session when its turn has ended. -/
def session (now : Instant) (s : Session) : Ending → Session
  | refused _ _ => s
  | rests n => s.movedTo n now
  | completed n => (s.movedTo n now).finishedAt now

/-- The text that the caller is shown. -/
def screen (s : Session) : Ending → String
  | refused n message => Screen.render (some n) s.bindings (some message)
  | rests n => Screen.render (some n) s.bindings none
  | completed n => Turn.closing (some n) s

/-- Whether the session is over. -/
def isFinished : Ending → Bool
  | completed _ => true
  | _ => false

/-- Why the input was not accepted. -/
def error? : Ending → Option String
  | refused _ message => some message
  | _ => none

/-- What the caller gets, given the session in the end. -/
def navigation (s : Session) (ending : Ending) : Navigation :=
  ⟨s.id, ending.screen s, ending.isFinished, ending.error?, s.status, s.currentNode⟩

/-- The events of the end, by type and node. -/
def told : Ending → List (EventType × Option String)
  | refused n _ => [(.errorOccurred, some n.id)]
  | rests _ => []
  | completed n => [(.sessionCompleted, some n.id)]

end Ending

/-- The type of an event and the node that it is about. -/
def Event.mark (event : Event) : EventType × Option String := (event.type, event.node)

/-- The events of visits to some nodes. -/
def Node.visits (path : List Node) : List (EventType × Option String) :=
  path.map fun m => (.nodeVisited, some m.id)

/-- The events that a node causes when it has its action carried out. -/
def Node.actionMarks (n : Node) : List (EventType × Option String) :=
  if n.isAction then [(.actionInitiated, some n.id)] else []

variable {L : Ledger} {others : String → Prop} {e e' : Engine} {f : Flow} {n m : Node}
  {s : Session} {path : List Node} {ending : Ending} {id : String} {expiry : Instant}

/-- One event is told. -/
theorem Engine.tells_event {type : EventType} {node : Option String}
    {data : List (String × Value)} {now : Instant}
    (h : e'.sink = toldTo [.ofSession type s node data now] e.sink) :
    e.Tells [.ofSession type s node data now] e' := h

/-- Where a session has been on its way does not show in the end. -/
theorem Flow.Settles.session_movedTo {bindings : Dict String}
    (h : f.Settles bindings n path ending) (now : Instant) (s : Session) (m : Node) :
    ending.session now (s.movedTo m now) = ending.session now s := by
  induction h with
  | rests _ => rfl
  | ends _ _ => rfl
  | leads _ _ _ _ ih => exact ih

theorem Flow.Settles.error?_eq_none {bindings : Dict String}
    (h : f.Settles bindings n path ending) : ending.error? = none := by
  induction h with
  | rests _ => rfl
  | ends _ _ => rfl
  | leads _ _ _ _ ih => exact ih

/-- No input was counted from one state to the other. -/
def Engine.SameInputs (e e' : Engine) : Prop :=
  ∀ o, e'.metrics.count (.inputs o) = e.metrics.count (.inputs o)

namespace Engine.SameInputs

theorem trans {e'' : Engine} (h : e.SameInputs e') (h' : e'.SameInputs e'') : e.SameInputs e'' :=
  fun o => (h' o).trans (h o)

theorem tally (e : Engine) {k : Metric} (i : Int) (hk : ∀ o, k ≠ .inputs o) :
    e.SameInputs (e.tally k i) := fun o => by
  rw [Engine.tally, Metrics.count_add, if_neg (hk o)]

theorem acted (e : Engine) (n : Node) (s : Session) : e.SameInputs (e.acted n s) := by
  have hrequested : e.SameInputs (e.requested n s) := fun o => by
    rw [requested]
    cases e.executor.isSome <;> rfl
  rw [Engine.acted]
  split
  · refine hrequested.trans ?_
    rw [counted]
    split
    · exact (tally _ 1 fun _ => Metric.noConfusion).trans (tally _ 1 fun _ => Metric.noConfusion)
    · exact tally _ 1 fun _ => Metric.noConfusion
  · exact fun _ => rfl

theorem moved (e : Engine) (s : Session) (n : Node) (o : Outcome) : e.SameInputs (e.moved s n o) :=
  tally e (k := .visits n.kind) 1 fun _ => Metric.noConfusion

theorem finished (e : Engine) (s : Session) : e.SameInputs (e.finished s) :=
  (tally e (k := .activeSessions) (-1) fun _ => Metric.noConfusion).trans
    (tally _ (k := .sessions .completed) 1 fun _ => Metric.noConfusion)

end Engine.SameInputs

/-! ## The stages -/

namespace Turn

variable {t t' : Turn} {o : Outcome} {limit : Nat}

/-- A turn is over: its session has passed through some nodes, and that is how it has
ended. -/
structure Over (e : Engine) (s : Session) (path : List Node) (ending : Ending) (t : Turn)
    (e' : Engine) : Prop where
  sameId : t.sessionId = s.id
  prompt : t.prompt = ending.screen (ending.session e.now s)
  finished : t.isFinished = ending.isFinished
  error : t.error = ending.error?
  service : e.SameService e'
  stored : e'.store.get? s.id = some (ending.session e.now s)
  requests : e'.requests = e.requests
  inputs : e.SameInputs e'
  told : ∃ es, e.Tells es e' ∧ es.map Event.mark = Node.visits path ++ ending.told

/-- The rest of a turn comes to an end. -/
def ComesTo (limit : Nat) (σ : Stage) (t : Turn) (e : Engine) (s : Session) (path : List Node)
    (ending : Ending) : Prop :=
  ∃ t' e', (run limit σ t).start e = (.ok t', e') ∧ Over e s path ending t' e'

theorem run_last {σ : Stage} (h : (t.perform σ).start e = (.ok t', e')) (hlast : t'.next? σ = none) :
    (run (limit + 1) σ t).start e = (.ok t', e') := by
  rw [run, start_bind_of_ok h, hlast]
  rfl

theorem run_next {σ σ' : Stage} (h : (t.perform σ).start e = (.ok t', e'))
    (hnext : t'.next? σ = some σ') :
    (run (limit + 1) σ t).start e = (run limit σ' t').start e' := by
  rw [run, start_bind_of_ok h, hnext]

section Stored

variable (hget : e.store.get? t.sessionId = some s) (hplain : t.IsPlain)

include hget hplain

theorem over_respond (hat : s.movedTo t.node e.now = s) :
    ComesTo (limit + 1) .respond t e s [] (.rests t.node) := by
  have hid : s.id = t.sessionId := KeyedList.key_of_find? hget
  have hrespond : (t.perform .respond).start e = _ := start_respond hget
  refine ⟨_, _, run_last hrespond rfl, hid.symm, ?_, hplain.2, hplain.1, .refl e, ?_, rfl,
    fun _ => rfl, [], Engine.tells_nil rfl, rfl⟩
  · rw [Ending.session, hat]
    rfl
  · rw [Ending.session, hat, hid]
    exact hget

omit hplain in
theorem over_reprompt (hnode : s.currentNode = some t.node.id) (ho : t.outcome = some o)
    {message : String} (hmove : o.move = .stay message) (hfinished : t.isFinished = false) :
    ComesTo (limit + 1) .reprompt t e s [] (.refused t.node (Flow.shownMessage message)) := by
  have hid : s.id = t.sessionId := KeyedList.key_of_find? hget
  have hmessage : t.shownError = Flow.shownMessage message := by
    rw [shownError, ho, Option.bind_some, Outcome.error?, hmove, Flow.shownMessage]
    by_cases hempty : message = ""
    · subst hempty
      rfl
    · rw [Option.filter_some, if_pos (by simpa using hempty), if_neg hempty]
  have hreprompt : (t.perform .reprompt).start e = _ := start_reprompt hget
  refine ⟨_, _, run_last hreprompt rfl, hid.symm, ?_, hfinished, ?_, e.sameService_announce .., ?_,
    rfl, fun _ => rfl, _, Engine.tells_event rfl, ?_⟩
  · rw [hmessage]
    rfl
  · rw [hmessage]
    rfl
  · rw [Engine.store_announce, hid]
    exact hget
  · simp [Event.mark, Event.ofSession, hnode, Node.visits, Ending.told]

theorem over_complete (hnode : s.currentNode = some t.node.id) (ha : s.isActive = true)
    (ho : t.outcome = some o) :
    ComesTo (limit + 1) .complete t e (s.capture o.captured) [] (.completed t.node) := by
  have hid : s.id = t.sessionId := KeyedList.key_of_find? hget
  have hend : (Ending.completed t.node).session e.now (s.capture o.captured) =
      (s.capture o.captured).finishedAt e.now := by
    rw [Ending.session, Session.movedTo, ← hnode]
    rfl
  have hcomplete : (t.perform .complete).start e = _ := start_complete hget ho ha
  refine ⟨_, _, run_last hcomplete rfl, hid.symm, ?_, rfl, hplain.1,
    Engine.sameService_finished .., ?_, rfl, .finished e _, _, Engine.tells_event rfl, ?_⟩
  · rw [hend]
    rfl
  · rw [hend]
    exact Engine.get?_finished rfl
  · have hmark : (s.capture o.captured).currentNode = some t.node.id := hnode
    simp [Event.mark, Event.ofSession, Session.finishedAt, hmark, Node.visits, Ending.told]

omit hplain in
/-- A move is followed by what the turn comes to from there. -/
theorem over_advance {target : String} (ho : t.outcome = some o) (hmove : o.move = .to target)
    (hm : t.flow.node? target = some m)
    (hend : ∀ s', ending.session e.now (s'.movedTo m e.now) = ending.session e.now s')
    (hrest : ComesTo limit (t.arrived m).afterAdvance (t.arrived m) (e.moved s m o)
      ((s.movedTo m e.now).capture o.captured) path ending) :
    ComesTo (limit + 1) .advance t e (s.capture o.captured) (m :: path) ending := by
  have htarget : o.target? = some target := by rw [Outcome.target?, hmove]
  obtain ⟨t', e', hrun, hover⟩ := hrest
  have hsession : ending.session e.now ((s.movedTo m e.now).capture o.captured) =
      ending.session e.now (s.capture o.captured) := hend (s.capture o.captured)
  have hadvance : (t.perform .advance).start e = _ := start_advance hget ho htarget hm
  obtain ⟨es, htells, hmarks⟩ := hover.told
  refine ⟨t', e', (run_next hadvance rfl).trans hrun, hover.sameId, ?_, hover.finished,
    hover.error, (e.sameService_moved s m o).trans hover.service, ?_, hover.requests,
    (Engine.SameInputs.moved e s m o).trans hover.inputs, _, (Engine.tells_event rfl).trans htells,
    ?_⟩
  · rw [← hsession]
    exact hover.prompt
  · rw [← hsession]
    exact hover.stored
  · rw [List.map_append, hmarks]
    simp [Event.mark, Event.ofSession, Session.movedTo, Node.visits]

end Stored

/-! ## Along conditionals -/

/-- A turn stands at a node of its flow, and so does its session. -/
structure Stands (t : Turn) (e : Engine) (s : Session) (f : Flow) (n : Node) : Prop where
  flow : t.flow = f
  node : t.node = n
  found : f.node? n.id = some n
  plain : t.IsPlain
  stored : e.store.get? t.sessionId = some s
  active : s.isActive = true
  replaced : e.replaced = []
  arrived : s.movedTo n e.now = s

/-- After a move the turn stands at the next node. -/
theorem stands_moved (hget : e.store.get? t.sessionId = some s) (hplain : t.IsPlain)
    (ha : s.isActive = true) (hr : e.replaced = []) (hflow : t.flow = f)
    (hm : f.node? m.id = some m) (o : Outcome) :
    (t.arrived m).Stands (e.moved s m o) ((s.movedTo m e.now).capture o.captured) f m where
  flow := hflow
  node := rfl
  found := hm
  plain := hplain
  stored := Engine.get?_moved (KeyedList.key_of_find? hget) o
  active := ha
  replaced := hr
  arrived := rfl

/-- At a conditional the condition is evaluated, and nothing else happens. -/
theorem start_dispatch_of_conditional (hget : e.store.get? t.sessionId = some s)
    (hr : e.replaced = []) {c : Condition} {b : Branches} {next : Option String}
    (hb : t.node.behaviour = .conditional c b next) : ∃ metadata,
    (t.perform .dispatch).start e = (.ok (t.heard
      ⟨.along ((if c.holds s.bindings then b.success else b.failure).or next), .empty,
        metadata⟩), e) := by
  have hacted : e.acted t.node s = e := by
    rw [Engine.acted, Node.not_isAction_of_isTransient (Flow.isTransient_of_conditional hb),
      if_neg Bool.false_ne_true]
  have hstart := start_dispatch hget hr
  rw [Node.interpret_conditional hb, Handler.branch_eq, hacted] at hstart
  exact ⟨_, hstart⟩

/-- So from a conditional a turn goes on with what its edge leads to. -/
theorem comesTo_of_conditional (h : t.Stands e s f n) {c : Condition} {b : Branches}
    {next : Option String} (hb : n.behaviour = .conditional c b next)
    (hrest : ∀ metadata,
      let o : Outcome := ⟨.along ((if c.holds s.bindings then b.success else b.failure).or next),
        .empty, metadata⟩
      ComesTo limit (t.heard o).afterDispatch (t.heard o) e s path ending) :
    ComesTo (limit + 1) t.afterAdvance t e s path ending := by
  have hnode := h.node
  subst hnode
  obtain ⟨metadata, hdispatch⟩ := start_dispatch_of_conditional h.stored h.replaced hb
  obtain ⟨t', e', hrun, hover⟩ := hrest metadata
  rw [afterAdvance, if_pos (Flow.isTransient_of_conditional hb)]
  exact ⟨t', e', (run_next hdispatch rfl).trans hrun, hover⟩

/-- **Settling.**  From the node where it stands a turn comes to the end in which its
session settles. -/
theorem start_run_of_settles (h : t.Stands e s f n) (hwf : f.WellFormed)
    (hsettles : f.Settles s.bindings n path ending) (hlimit : 2 * f.rank n.id + 2 ≤ limit) :
    ComesTo limit t.afterAdvance t e s path ending := by
  generalize hbindings : s.bindings = bindings at hsettles
  -- each hop takes two stages, and the rank of the node falls
  induction hsettles generalizing t e s limit with
  | @rests n hrests =>
      obtain ⟨limit, rfl⟩ : ∃ k, limit = k + 1 := ⟨limit - 1, by omega⟩
      have hnode := h.node
      subst hnode
      rw [afterAdvance, hrests, if_neg Bool.false_ne_true]
      exact over_respond h.stored h.plain h.arrived
  | @ends n c b next hb hedge =>
      obtain ⟨limit, rfl⟩ : ∃ k, limit = k + 1 + 1 := ⟨limit - 2, by omega⟩
      subst hbindings
      refine comesTo_of_conditional h hb fun metadata => ?_
      rw [hedge]
      have hcurrent : s.currentNode = some t.node.id := by
        rw [← h.arrived, h.node]
        rfl
      rw [← h.node]
      exact over_complete (t := t.heard _) (o := ⟨.finish, .empty, metadata⟩) h.stored h.plain
        hcurrent h.active rfl
  | @leads n m c b next target path ending hb hedge hm hrest ih =>
      obtain ⟨limit, rfl⟩ : ∃ k, limit = k + 1 + 1 := ⟨limit - 2, by omega⟩
      subst hbindings
      obtain ⟨m', hm', hself, hless⟩ := hwf.exists_branch h.found hb hedge
      cases hm.symm.trans hm'
      refine comesTo_of_conditional h hb fun metadata => ?_
      rw [hedge]
      have hstands := stands_moved (t := t.heard ⟨.to target, .empty, metadata⟩) h.stored h.plain
        h.active h.replaced h.flow hself ⟨.to target, .empty, metadata⟩
      have hcomes : ComesTo limit _ _ _ _ path ending := ih hstands (by omega) rfl
      have hm' : t.flow.node? target = some m := by rw [h.flow, hm]
      exact over_advance (t := t.heard _) (o := ⟨.to target, .empty, metadata⟩) h.stored rfl rfl
        hm' (fun s' => hrest.session_movedTo e.now s' m) hcomes

/-- **Outcomes.**  What comes after an interpretation is what its outcome is followed to. -/
theorem start_run_of_follows {bindings : Dict String} (hget : e.store.get? t.sessionId = some s)
    (hplain : t.IsPlain) (ha : s.isActive = true) (hr : e.replaced = []) (hflow : t.flow = f)
    (hwf : f.WellFormed) (hnode : s.currentNode = some t.node.id)
    (hfollows : f.Follows t.node s.bindings o bindings path ending)
    (hlimit : 2 * f.size + 1 ≤ limit) :
    ComesTo limit (t.heard o).afterDispatch (t.heard o) e { s with bindings } path ending := by
  obtain ⟨limit, rfl⟩ : ∃ k, limit = k + 1 := ⟨limit - 1, by omega⟩
  cases hfollows with
  | @stays message hmove =>
      have hafter : (t.heard o).afterDispatch = .reprompt := by
        simp only [afterDispatch, heard, hmove]
      rw [hafter]
      exact over_reprompt (t := t.heard o) hget hnode rfl hmove hplain.2
  | ends hmove =>
      have hafter : (t.heard o).afterDispatch = .complete := by
        simp only [afterDispatch, heard, hmove]
      rw [hafter]
      exact over_complete (t := t.heard o) hget hplain hnode ha rfl
  | @goes m target path ending hmove hm hsettles =>
      have hafter : (t.heard o).afterDispatch = .advance := by
        simp only [afterDispatch, heard, hmove]
      have hself : f.node? m.id = some m := Flow.node?_id_of_node? hm
      have hrank : f.rank m.id < f.size :=
        Flow.rank_lt_size hwf.acyclic (Flow.hasNode_of_node? hself)
      have hstands := stands_moved (t := t.heard o) hget hplain ha hr hflow hself o
      rw [hafter]
      exact over_advance (t := t.heard o) hget rfl hmove (by rw [← hflow] at hm; exact hm)
        (fun s' => hsettles.session_movedTo e.now s' m)
        (start_run_of_settles hstands hwf hsettles (by omega))

end Turn

/-! ## Inputs -/

theorem Engine.tells_acted (e : Engine) (n : Node) (s : Session) :
    ∃ es, e.Tells es (e.acted n s) ∧ es.map Event.mark = n.actionMarks := by
  rw [acted, Node.actionMarks]
  cases n.isAction with
  | false => exact ⟨[], tells_nil rfl, rfl⟩
  | true =>
      have hsink : ((e.requested n s).counted n e.executor.isSome (e.resultFor ⟨n, s⟩)).sink =
          toldTo [.ofSession .actionInitiated s (some n.id) [("action", .text n.kind.text)] e.now]
            e.sink := by
        unfold counted requested
        cases e.executor.isSome <;> rfl
      exact ⟨_, tells_event hsink, rfl⟩

namespace Engine.Awaits

/-- An input to a session whose time cannot be renewed is recorded, and fails. -/
theorem start_processInput_of_late (ha : e.Awaits id s f n)
    (htime : e.now.afterSeconds? e.settings.sessionTimeout = none) (input : String) :
    ∃ e', (processInput id input).start e = (.error .timeOutOfRange, e') ∧
      e'.store.get? id = some (s.record input e.now) ∧ e'.requests = e.requests := by
  obtain ⟨e₁, e₂, h₁, -, hstart⟩ := start_processInput_of_awaits ha input
  have hplay := Turn.start_play_ofInput_of_late (f := f) (n := n) (h₁.alike.awaits ha).stored
    (h₁.alike.service.renewal.trans htime) input
  have hlate := processInput_of_late ha htime input
  rw [Turn.shown, start_bind_of_error hplay] at hstart
  rw [hstart] at hlate
  refine ⟨e₂, hstart, ?_, hlate.requests⟩
  rw [hlate.store, Engine.get?_keep]
  exact if_pos ha.sameId

/-- **Inputs.**  The turn of an input records it, has it interpreted by the node where the
session is, and comes to what the outcome is followed to. -/
theorem start_play_ofInput {input : String} {o : Outcome} {bindings : Dict String}
    (ha : e.Awaits id s f n) (hwf : f.WellFormed) (hr : e.replaced = [])
    (htime : e.now.afterSeconds? e.settings.sessionTimeout = some expiry)
    (ho : n.interpret s.bindings input (e.resultAt s n input expiry) = .ok o)
    (hfollows : f.Follows n s.bindings o bindings path ending) :
    ∃ t' e', (Turn.ofInput id f n input).play.start e = (.ok t', e') ∧
      Turn.Over ((e.received (s.receivedAt input e.now expiry) input).acted n
        (s.receivedAt input e.now expiry)) { s.receivedAt input e.now expiry with bindings } path
          ending t' e' := by
  have hplay := Turn.start_play_ofInput ha hr htime input
  rw [ho] at hplay
  have hget : ((e.received (s.receivedAt input e.now expiry) input).acted n
      (s.receivedAt input e.now expiry)).store.get? id = some (s.receivedAt input e.now expiry) := by
    rw [Engine.store_acted, Engine.store_received, Engine.get?_keep]
    exact if_pos ha.sameId
  have hsame := (e.sameService_received (s.receivedAt input e.now expiry) input).trans
    (Engine.sameService_acted _ (s.receivedAt input e.now expiry) n)
  have hlimit : 2 * f.size + 1 ≤ Turn.stageLimit f - 2 := by
    rw [Turn.stageLimit]
    omega
  obtain ⟨t', e', hrun, hover⟩ := Turn.start_run_of_follows (t := Turn.ofInput id f n input) hget
    ⟨rfl, rfl⟩ ha.active (hsame.replaced.trans hr) rfl hwf ha.resting hfollows hlimit
  exact ⟨t', e', hplay.trans hrun, hover⟩

/-- The caller gets what belongs to the end. -/
theorem start_shown_ofInput {input : String} {o : Outcome} {bindings : Dict String}
    (ha : e.Awaits id s f n) (hwf : f.WellFormed) (hr : e.replaced = [])
    (htime : e.now.afterSeconds? e.settings.sessionTimeout = some expiry)
    (ho : n.interpret s.bindings input (e.resultAt s n input expiry) = .ok o)
    (hfollows : f.Follows n s.bindings o bindings path ending) :
    let s' := ending.session e.now { s.receivedAt input e.now expiry with bindings }
    ∃ t' e', (Turn.ofInput id f n input).shown.start e = (.ok (ending.navigation s'), e') ∧
      e'.store.get? id = some s' ∧
      Turn.Over ((e.received (s.receivedAt input e.now expiry) input).acted n
        (s.receivedAt input e.now expiry)) { s.receivedAt input e.now expiry with bindings } path
          ending t' e' := by
  intro s'
  obtain ⟨t', e', hplay, hover⟩ := ha.start_play_ofInput hwf hr htime ho hfollows
  have hend : ending.session ((e.received (s.receivedAt input e.now expiry) input).acted n
      (s.receivedAt input e.now expiry)).now { s.receivedAt input e.now expiry with bindings } =
      s' := by
    rw [((e.sameService_received _ input).trans (Engine.sameService_acted ..)).now]
  have hsid : t'.sessionId = id := hover.sameId.trans ha.sameId
  have hstored : e'.store.get? id = some s' := by
    rw [← hend, ← ha.sameId]
    exact hover.stored
  have hsid' : s'.id = id := KeyedList.key_of_find? hstored
  refine ⟨t', e', ?_, hstored, hover⟩
  rw [Turn.shown, start_bind_of_ok hplay, start_navigationOf (by rw [hsid]; exact hstored),
    Ending.navigation, hsid, hsid', hover.prompt, hover.finished, hover.error, hend]

/-- The operation gives the caller what belongs to the end, and has told what belongs to
the way there. -/
theorem start_processInput {input : String} {o : Outcome} {bindings : Dict String}
    (ha : e.Awaits id s f n) (hwf : f.WellFormed) (hr : e.replaced = [])
    (htime : e.now.afterSeconds? e.settings.sessionTimeout = some expiry)
    (ho : n.interpret s.bindings input (e.resultAt s n input expiry) = .ok o)
    (hfollows : f.Follows n s.bindings o bindings path ending) :
    let s' := ending.session e.now { s.receivedAt input e.now expiry with bindings }
    ∃ e', (processInput id input).start e = (.ok (ending.navigation s'), e') ∧
      e'.store.get? id = some s' ∧
      e'.requests = (if n.isAction && e.executor.isSome then
        e.requests ++ [⟨n, s.receivedAt input e.now expiry⟩] else e.requests) ∧
      ∃ es, e.Tells es e' ∧ es.map Event.mark =
        (.inputReceived, some n.id) :: (n.actionMarks ++ Node.visits path ++ ending.told) := by
  intro s'
  obtain ⟨e₁, e₂, h₁, h₂, hstart⟩ := start_processInput_of_awaits ha input
  have hnow : e₁.now = e.now := h₁.alike.service.now
  rw [← h₁.alike.resultAt] at ho
  obtain ⟨t', e', hshown, hstored, hover⟩ := (h₁.alike.awaits ha).start_shown_ofInput hwf
    (h₁.alike.service.replaced.trans hr) (h₁.alike.service.renewal.trans htime) ho hfollows
  rw [hnow] at hshown hstored hover
  rw [hshown] at hstart h₂
  obtain ⟨es, htells, hmarks⟩ := hover.told
  obtain ⟨es', hacted, hmarks'⟩ := Engine.tells_acted
    (e₁.received (s.receivedAt input e.now expiry) input) n (s.receivedAt input e.now expiry)
  have hrecorded : e₁.Tells [.ofSession .inputReceived (s.receivedAt input e.now expiry) none _ _]
      (e₁.received (s.receivedAt input e.now expiry) input) := Engine.tells_event rfl
  have htold := (((h₁.silent.tells.trans hrecorded).trans hacted).trans htells).trans
    h₂.silent.tells
  have hcurrent : (s.receivedAt input e.now expiry).currentNode = some n.id := ha.resting
  refine ⟨e₂, hstart, h₂.alike.store ▸ hstored, ?_, _, htold, ?_⟩
  · rw [h₂.alike.requests, hover.requests, Engine.requests_acted, Engine.requests_received,
      h₁.alike.requests, show (e₁.received _ input).executor = e.executor from
        h₁.alike.service.executor]
  · simp [hmarks, hmarks', Event.mark, Event.ofSession, hcurrent]

end Engine.Awaits

/-! ## New sessions -/

theorem start_storeSession_of_new (h : e.store.get? s.id = none) :
    (storeSession s).start e = (.ok (), e.opened s) := by
  have hnew : ¬ e.store.sessions.contains s.id = true := by
    rw [KeyedList.contains, Option.isSome_iff_exists]
    rintro ⟨s', hs'⟩
    cases h.symm.trans hs'
  rw [storeSession, start_bind_of_ok (start_get e), SessionStore.create, if_neg hnew]
  rfl

/-- A new session is stored, and its turn is played; what that comes to is the result.
Sections make no difference but to the locks. -/
theorem start_createSession_of_new {c : Caller} {t' : Turn} {s' : Session}
    (hf : e.registry.get? c.flowId = some f) (hn : f.node? f.startNode = some n)
    (hnone : e.store.findLive? c.flowId c.phoneNumber c.ussdCode e.now = none)
    (htime : e.now.afterSeconds? e.settings.sessionTimeout = some expiry)
    (hnew : e.store.get? (sessionId e.nextSession) = none)
    (hs : s = .newlyOpened (sessionId e.nextSession) f c e.now expiry)
    (hplay : (Turn.start s.id f n none).play.start (e.numbered.opened s) = (.ok t', e'))
    (hget : e'.store.get? t'.sessionId = some s') :
    ∃ locks, (createSession c).start e = (.ok s', { e' with locks }) := by
  have hopen : (openSession f c).start e =
      (.ok (.opened s (.start s.id f n none)), e.numbered) := by
    rw [openSession, start_bind_of_ok (start_get e), hnone]
    have hmade := start_newSession f c e
    rw [htime] at hmade
    dsimp only at hmade
    rw [← hs] at hmade
    have hnode : s.currentNode.bind f.node? = some n := by
      rw [hs]
      exact hn
    rw [start_bind_of_ok hmade, start_bind_of_ok (start_nodeOf_of_some hnode _)]
    rfl
  have hfree : e.numbered.store.get? s.id = none := by
    rw [hs]
    exact hnew
  have hbody : (do
      storeSession s
      servedBy (← (Turn.start s.id f n none).play) : EngineM Session).start e.numbered =
        (.ok s', e') := by
    rw [start_bind_of_ok (start_storeSession_of_new hfree), start_bind_of_ok hplay]
    exact start_served_of_stored hget
  have hlockFree : LockFree (do
      storeSession s
      servedBy (← (Turn.start s.id f n none).play)) :=
    lockFree_bind (lockFree_storeSession s) fun _ =>
      lockFree_bind (lockFree_run _ _ _) fun t => lockFree_served t.sessionId
  have hfound (inside : Locks) : ∃ locks, (findOrOpen f c).start { e with locks := inside } =
      (.ok (s', true), { e' with locks }) := by
    obtain ⟨locks, hheld⟩ := hlockFree.start_hold s.id { e.numbered with locks := inside }
    rw [hlockFree e.numbered inside, hbody] at hheld
    refine ⟨locks, ?_⟩
    have hopened := lockFree_openSession f c e inside
    rw [hopen] at hopened
    rw [findOrOpen, start_bind_of_ok hopened]
    exact start_bind_of_ok hheld
  obtain ⟨locks, hfound⟩ := hfound _
  have hhold := start_hold c.key (findOrOpen f c) e
  dsimp only at hhold
  rw [show ((enterLock c.key solo).start e).2 = { e with locks := _ } from rfl, hfound] at hhold
  rw [createSession, start_bind_of_ok (start_currentFlow_of_some hf), start_bind_of_ok hhold]
  exact ⟨_, rfl⟩

/-- The turn of a new session stands at the start of its flow. -/
theorem Turn.stands_opened {c : Caller} {now : Instant} (hn : f.node? f.startNode = some n)
    (hr : e.replaced = []) (hnow : e.now = now) (hs : s = .newlyOpened id f c now expiry) :
    (Turn.start s.id f n none).Stands (e.opened s) s f n where
  flow := rfl
  node := rfl
  found := Flow.node?_id_of_node? hn
  plain := ⟨rfl, rfl⟩
  stored := (e.get?_opened s s.id).trans (if_pos rfl)
  active := by
    rw [hs]
    rfl
  replaced := hr
  arrived := by
    rw [show (e.opened s).now = now from hnow, hs, Session.movedTo,
      show n.id = f.startNode from KeyedList.key_of_find? hn]
    rfl

/-- **New sessions.**  The turn of a session that is opened settles it from the start of
its flow, with the variables that the flow sets. -/
theorem Engine.Sound.start_play_opened (h : e.Sound L others) {c : Caller}
    (hf : e.registry.get? c.flowId = some f) (hn : f.node? f.startNode = some n)
    (hs : s = .newlyOpened (sessionId e.nextSession) f c e.now expiry)
    (hsettles : f.Settles f.defaults n path ending) :
    e.store.get? s.id = none ∧ ∃ t' e',
      (Turn.start s.id f n none).play.start (e.numbered.opened s) = (.ok t', e') ∧
      Turn.Over (e.numbered.opened s) s path ending t' e' := by
  have hwf : f.WellFormed := h.registry.validated f (Registry.mem_of_get? hf).1
  constructor
  · cases hget : e.store.get? s.id with
    | none => rfl
    | some stored =>
        have hid : s.id = sessionId e.nextSession := by
          rw [hs]
          rfl
        rw [hid] at hget
        exact absurd (h.stored hget).2.1 (not_isIssued_self _)
  · have hbindings : s.bindings = f.defaults := by
      rw [hs]
      rfl
    have hstands := Turn.stands_opened (e := e.numbered) hn h.replaced rfl hs
    have hlimit : 2 * f.rank n.id + 2 ≤ Turn.stageLimit f := by
      have hrank : f.rank n.id < f.size :=
        Flow.rank_lt_size hwf.acyclic (Flow.hasNode_of_node? hstands.found)
      rw [Turn.stageLimit]
      omega
    -- without an input a turn enters as it goes on after a move
    exact Turn.start_run_of_settles hstands hwf (hbindings ▸ hsettles) hlimit

/-- Nothing is recorded when a session is opened, and nobody is asked. -/
theorem Engine.Sound.start_createSession (h : e.Sound L others) {c : Caller}
    (hf : e.registry.get? c.flowId = some f) (hn : f.node? f.startNode = some n)
    (hnone : e.store.findLive? c.flowId c.phoneNumber c.ussdCode e.now = none)
    (htime : e.now.afterSeconds? e.settings.sessionTimeout = some expiry)
    (hsettles : f.Settles f.defaults n path ending) :
    let s' := ending.session e.now (.newlyOpened (sessionId e.nextSession) f c e.now expiry)
    ∃ e', (createSession c).start e = (.ok s', e') ∧
      e.store.get? s'.id = none ∧ e'.store.get? s'.id = some s' ∧ e'.requests = e.requests ∧
      ∃ es, e.Tells es e' ∧
        es.map Event.mark = (.sessionStarted, some n.id) :: (Node.visits path ++ ending.told) := by
  generalize hs : Session.newlyOpened (sessionId e.nextSession) f c e.now expiry = s
  intro s'
  obtain ⟨hnew, t', e', hplay, hover⟩ := h.start_play_opened hf hn hs.symm hsettles
  have hstored : e'.store.get? s.id = some s' := hover.stored
  have hsid' : s'.id = s.id := KeyedList.key_of_find? hstored
  have hfree : e.store.get? (sessionId e.nextSession) = none := by
    rw [← hs] at hnew
    exact hnew
  obtain ⟨locks, hcreate⟩ := start_createSession_of_new hf hn hnone htime hfree hs.symm hplay
    (by rw [hover.sameId, hstored])
  obtain ⟨es, htells, hmarks⟩ := hover.told
  have hstarted : e.Tells [.ofSession .sessionStarted s none _ _] (e.numbered.opened s) :=
    Engine.tells_event rfl
  have hcurrent : s.currentNode = some n.id := by
    rw [← hs, show n.id = f.startNode from KeyedList.key_of_find? hn]
    rfl
  refine ⟨_, hcreate, ?_, ?_, hover.requests, _, hstarted.trans htells, ?_⟩
  · rw [hsid', hnew]
  · rw [hsid', ← hstored]
  · simp [hmarks, Event.mark, Event.ofSession, hcurrent]

/-! ## In every state of the service -/

/-- **Turns.**  In every state that a service can be in, a live session is at a node of
its flow.  If its time cannot be renewed, an input to it fails when it has been recorded.
Otherwise the input is recorded, and what the node makes of it is followed, in the one
way in which this is possible:

* the session is left at the node, with the variables and the status said there, and
  the caller is shown what belongs to that;
* the executor is asked for the action of the node where the session was, if it has
  one, and for nothing else; and what is told is that an input was received, that the
  action was begun, the visits on the way, and the end.

A session that is opened settles in the same way from the start of its flow, with the
variables that the flow sets; nothing is recorded then, and nobody is asked. -/
theorem Service.Reachable.turns_settle {w : Service} (hw : w.Reachable) :
    (∀ id s, w.engine.store.get? id = some s → s.isLive w.engine.now = true →
      ∃ f n, w.engine.Awaits id s f n ∧ ∀ input,
        (w.engine.now.afterSeconds? w.engine.settings.sessionTimeout = none →
          ∃ e', (processInput id input).start w.engine = (.error .timeOutOfRange, e') ∧
            e'.store.get? id = some (s.record input w.engine.now) ∧
            e'.requests = w.engine.requests) ∧
        ∀ expiry o, w.engine.now.afterSeconds? w.engine.settings.sessionTimeout = some expiry →
          n.interpret s.bindings input (w.engine.resultAt s n input expiry) = .ok o →
          ∃ bindings path ending, f.Follows n s.bindings o bindings path ending ∧
            (∀ bindings' path' ending', f.Follows n s.bindings o bindings' path' ending' →
              bindings' = bindings ∧ path' = path ∧ ending' = ending) ∧
            let s' := ending.session w.engine.now
              { s.receivedAt input w.engine.now expiry with bindings }
            ∃ e', (processInput id input).start w.engine = (.ok (ending.navigation s'), e') ∧
              e'.store.get? id = some s' ∧
              e'.requests = (if n.isAction && w.engine.executor.isSome then
                w.engine.requests ++ [⟨n, s.receivedAt input w.engine.now expiry⟩]
                else w.engine.requests) ∧
              ∃ es, w.engine.Tells es e' ∧ es.map Event.mark =
                (.inputReceived, some n.id) ::
                  (n.actionMarks ++ Node.visits path ++ ending.told)) ∧
    ∀ c f expiry, w.engine.registry.get? c.flowId = some f →
      w.engine.store.findLive? c.flowId c.phoneNumber c.ussdCode w.engine.now = none →
      w.engine.now.afterSeconds? w.engine.settings.sessionTimeout = some expiry →
      ∃ n path ending, f.node? f.startNode = some n ∧ f.Settles f.defaults n path ending ∧
        (∀ path' ending', f.Settles f.defaults n path' ending' →
          path' = path ∧ ending' = ending) ∧
        let s' := ending.session w.engine.now
          (.newlyOpened (sessionId w.engine.nextSession) f c w.engine.now expiry)
        ∃ e', (createSession c).start w.engine = (.ok s', e') ∧
          w.engine.store.get? s'.id = none ∧ e'.store.get? s'.id = some s' ∧
          e'.requests = w.engine.requests ∧
          ∃ es, w.engine.Tells es e' ∧ es.map Event.mark =
            (.sessionStarted, some n.id) :: (Node.visits path ++ ending.told) := by
  obtain ⟨L, h⟩ := hw.sound
  constructor
  · intro id s hget hlive
    obtain ⟨n, ha⟩ := h.engine.awaits hget hlive
    have hwf := (h.engine.stored hget).2.2.1
    refine ⟨L.pin id, n, ha, fun input => ⟨fun htime => ha.start_processInput_of_late htime input,
      fun expiry o htime ho => ?_⟩⟩
    have hself : (L.pin id).node? n.id = some n := by
      have hnode := ha.node
      rw [ha.resting] at hnode
      exact hnode
    obtain ⟨bindings, path, ending, hfollows⟩ := hwf.exists_follows hself ho
    exact ⟨bindings, path, ending, hfollows, fun _ _ _ h' => h'.unique hfollows,
      ha.start_processInput hwf h.engine.replaced htime ho hfollows⟩
  · intro c f expiry hf hnone htime
    have hwf : f.WellFormed := h.engine.registry.validated f (Registry.mem_of_get? hf).1
    obtain ⟨n, hn⟩ := hwf.start
    have hself : f.node? n.id = some n := Flow.node?_id_of_node? hn
    obtain ⟨path, ending, hsettles⟩ := hwf.exists_settles hself f.defaults
    exact ⟨n, path, ending, hn, hsettles, fun _ _ h' => h'.unique hsettles,
      h.engine.start_createSession hf hn hnone htime hsettles⟩

/-- Callers give their names unless these are known; whose name starts with an A has to
pay. -/
def Flow.sorting : Flow where
  id := "sorting"
  name := none
  description := none
  version := 1
  startNode := "known"
  nodes := .ofList [
    ⟨"known", "", .conditional ⟨"name", .startsWith, "A"⟩ ⟨some "pay", some "ask"⟩ none⟩,
    ⟨"ask", "Your name?", .input ⟨"name", true, none⟩ (some "check")⟩,
    ⟨"check", "", .conditional ⟨"name", .startsWith, "A"⟩ ⟨some "pay", none⟩ none⟩,
    ⟨"pay", "Pay?", .payment ⟨none, none⟩ .zero "GHS"⟩]
  defaults := .empty
  one_le_version := one_le_firstVersion

/-- A service with that flow where a session was started. -/
def Service.sorting : Service :=
  ((fresh .standard none (some (.simulated true)) ⟨0, Instant.zero_inRange⟩).perform
    (.publish .sorting)).perform (.create ⟨"sorting", "555", "*1#"⟩)

/-- When Ada has given her name to that flow she is asked to pay, and has not paid yet. -/
theorem Service.turns_settle_sorting :
    sorting.Reachable ∧ ∃ s, sorting.engine.store.get? (sessionId 1) = some s ∧
      s.isLive sorting.engine.now = true ∧ ∃ shown e',
        (processInput (sessionId 1) "Ada").start sorting.engine = (.ok shown, e') ∧
          shown.node = some "pay" ∧ shown.status = .active ∧ shown.error = none ∧
          e'.requests = [] := by
  have hreachable : sorting.Reachable :=
    ((Reachable.fresh ..).step (.perform _ (.publish .sorting))).step
      (.perform _ (.create ⟨"sorting", "555", "*1#"⟩))
  have hstored : (sorting.engine.store.get? (sessionId 1)).any (fun s =>
      s.isLive sorting.engine.now && decide (s.currentNode = some "ask") &&
        decide (s.bindings = .empty) &&
        decide (sorting.engine.registry.version? s.flowId s.flowVersion = some .sorting)) =
      true := by decide +kernel
  have htime : (sorting.engine.now.afterSeconds? sorting.engine.settings.sessionTimeout).isSome =
      true := by decide +kernel
  have hrequests : sorting.engine.requests.isEmpty = true := by decide +kernel
  obtain ⟨s, hget, hs⟩ := (Option.any_eq_true _ _).1 hstored
  simp only [Bool.and_eq_true, decide_eq_true_eq] at hs
  obtain ⟨⟨⟨hlive, hnode⟩, hbindings⟩, hpinned⟩ := hs
  obtain ⟨expiry, hexpiry⟩ := Option.isSome_iff_exists.1 htime
  obtain ⟨f, n, ha, hinput⟩ := hreachable.turns_settle.1 (sessionId 1) s hget hlive
  cases ha.pinned.symm.trans hpinned
  have hask : Flow.sorting.node? "ask" =
      some ⟨"ask", "Your name?", .input ⟨"name", true, none⟩ (some "check")⟩ := by decide +kernel
  have hn := ha.node
  rw [hnode, Option.bind_some, hask, Option.some.injEq] at hn
  subst hn
  obtain ⟨bindings, path, ending, -, hunique, e', hstart, -, hasked, -⟩ :=
    (hinput "Ada").2 expiry ⟨.to "check", .ofList [("name", "Ada")], .empty⟩ hexpiry rfl
  have hcheck : Flow.sorting.node? "check" =
      some ⟨"check", "", .conditional ⟨"name", .startsWith, "A"⟩ ⟨some "pay", none⟩ none⟩ := by
    decide +kernel
  have hpay : Flow.sorting.node? "pay" =
      some ⟨"pay", "Pay?", .payment ⟨none, none⟩ .zero "GHS"⟩ := by decide +kernel
  -- the name is stored before the condition is evaluated
  have hedge : (if (⟨"name", .startsWith, "A"⟩ : Condition).holds
      ((.empty : Dict String).putAll (.ofList [("name", "Ada")] : Dict String).items) then some "pay"
      else none).or none = some "pay" := by decide +kernel
  have hfollows : ∃ bindings path, Flow.sorting.Follows
      ⟨"ask", "Your name?", .input ⟨"name", true, none⟩ (some "check")⟩ s.bindings
      ⟨.to "check", .ofList [("name", "Ada")], .empty⟩ bindings path
      (.rests ⟨"pay", "Pay?", .payment ⟨none, none⟩ .zero "GHS"⟩) := by
    rw [hbindings]
    exact ⟨_, _, .goes rfl hcheck (.leads rfl hedge hpay (.rests rfl))⟩
  obtain ⟨_, _, hfollows⟩ := hfollows
  obtain ⟨-, -, rfl⟩ := hunique _ _ _ hfollows
  have hactive : s.status = .active := by simpa [Session.isActive] using ha.active
  exact ⟨hreachable, s, hget, hlive, _, e', hstart, rfl, hactive, rfl,
    hasked.trans (List.isEmpty_iff.1 hrequests)⟩

end UssdFlows
