import UssdFlows.Proofs.Engine.Sinks
import UssdFlows.Proofs.Service.Deeds

/-!
# The accounts of the engine

Sessions are counted in four places: in the store, by the gauge of active
sessions, by a counter for each change in the life of a session, and by the events
that are published; completed ones are also counted as uses of their flow.  All
these accounts *balance* (`Engine.Balanced`), and every deed keeps them so: a
session is opened or ended in one deed that changes each of them once
(`Engine.Enters`), and any other deed changes none of them.

So the accounts balance after every run, whatever has failed during it and whatever
was removed from the store (`Service.accounts_balance`).
-/

namespace UssdFlows

open EngineM

variable {e e' e₁ : Engine} {id : String} {s : Session} {about : Option String}
  {made : Option Session} {es new : List Event} {event : Event} {c : LifeEvent}

/-! ## The accounts -/

/-- The kind of event that tells of a change in the life of a session. -/
def LifeEvent.type : LifeEvent → EventType
  | started => .sessionStarted
  | completed => .sessionCompleted
  | terminated => .sessionTerminated
  | expired => .sessionExpired

/-- How many active sessions there are more after a change in the life of one. -/
def LifeEvent.gain : LifeEvent → Int
  | started => 1
  | completed | terminated | expired => -1

/-- How often a flow was completed according to the registry. -/
def Registry.useCount (r : Registry) (flowId : String) : Nat :=
  ((r.usage? flowId).map Usage.count).getD 0

namespace Engine

/-- The accounts of sessions go together, and with the events told so far. -/
structure Balanced (es : List Event) (e : Engine) : Prop where
  gauge : e.metrics.count .activeSessions = e.store.active.length
  balance : e.metrics.count (.sessions .started) =
    e.metrics.count (.sessions .completed) + e.metrics.count (.sessions .terminated) +
      e.metrics.count (.sessions .expired) + e.store.active.length
  uses : ∀ flowId, e.registry.useCount flowId =
    es.countP fun event => event.type == .sessionCompleted && event.flowId == flowId
  counters : ∀ c : LifeEvent,
    e.metrics.count (.sessions c) = es.countP fun event => event.type == c.type

/-- One change in the life of a session is entered once into each account. -/
structure Enters (c : LifeEvent) (event : Event) (e e' : Engine) : Prop where
  told : e.Tells [event] e'
  type : event.type = c.type
  gauge : e'.metrics.count .activeSessions = e.metrics.count .activeSessions + c.gain
  active : (e'.store.active.length : Int) = e.store.active.length + c.gain
  counters : ∀ d : LifeEvent, e'.metrics.count (.sessions d) =
    e.metrics.count (.sessions d) + if d = c then 1 else 0
  uses : ∀ flowId, e'.registry.useCount flowId = e.registry.useCount flowId +
    if c = .completed ∧ event.flowId = flowId then 1 else 0

/-- Nothing is entered into the accounts. -/
structure Spares (new : List Event) (e e' : Engine) : Prop where
  told : e.Tells new e'
  types : ∀ event ∈ new, ∀ c : LifeEvent, event.type ≠ c.type
  counts : ∀ m : Metric, m.IsOfSessions → e'.metrics.count m = e.metrics.count m
  active : e'.store.active.length = e.store.active.length
  uses : ∀ flowId, e'.registry.useCount flowId = e.registry.useCount flowId

theorem Spares.gauge (h : e.Spares new e') :
    e'.metrics.count .activeSessions = e.metrics.count .activeSessions :=
  h.counts .activeSessions trivial

theorem Spares.counter (h : e.Spares new e') (c : LifeEvent) :
    e'.metrics.count (.sessions c) = e.metrics.count (.sessions c) := h.counts (.sessions c) trivial

theorem Balanced.enter (h : e.Balanced es) (he : e.Enters c event e') :
    e'.Balanced (es ++ [event]) where
  gauge := by rw [he.gauge, he.active, h.gauge]
  balance := by
    have hbalance := h.balance
    have hactive := he.active
    rw [he.counters, he.counters, he.counters, he.counters]
    cases c <;> simp [LifeEvent.gain] at hactive ⊢ <;> omega
  uses := fun flowId => by
    rw [he.uses, h.uses, List.countP_append, List.countP_singleton, he.type]
    cases c <;> simp [LifeEvent.type]
  counters := fun d => by
    rw [he.counters, h.counters, List.countP_append, List.countP_singleton, he.type]
    cases c <;> cases d <;> simp [LifeEvent.type]

theorem Balanced.spare (h : e.Balanced es) (hs : e.Spares new e') : e'.Balanced (es ++ new) where
  gauge := by rw [hs.gauge, hs.active, h.gauge]
  balance := by
    have hbalance := h.balance
    rw [hs.counter, hs.counter, hs.counter, hs.counter, hs.active]
    exact hbalance
  uses := fun flowId => by
    have hnone : new.countP (fun event =>
        event.type == .sessionCompleted && event.flowId == flowId) = 0 := by
      rw [List.countP_eq_zero]
      intro event hmem
      have htype := hs.types event hmem .completed
      simp [LifeEvent.type] at htype
      simp [htype]
    rw [hs.uses, h.uses, List.countP_append, hnone, Nat.add_zero]
  counters := fun d => by
    have hnone : new.countP (fun event => event.type == d.type) = 0 := by
      rw [List.countP_eq_zero]
      intro event hmem
      simp [hs.types event hmem d]
    rw [hs.counter, h.counters, List.countP_append, hnone, Nat.add_zero]

/-! ## The number of active sessions -/

theorem length_active (t : SessionStore) :
    t.active.length = t.sessions.items.countP Session.isActive := by
  rw [SessionStore.active, List.length_map, List.countP_eq_length_filter]

/-- Keeping a session counts it in place of the one with its id. -/
theorem length_active_keep (e : Engine) (s : Session) :
    (e.keep s).store.active.length + (e.hasActive s.id).toNat =
      e.store.active.length + s.isActive.toNat := by
  rw [length_active, length_active]
  exact KeyedList.countP_put e.store.sessions Session.isActive s

/-- An active session is kept active. -/
theorem length_active_keep_of_isActive {s' : Session} (hget : e.store.get? id = some s)
    (ha : s.isActive = true) (hid : s'.id = s.id) (ha' : s'.isActive = true) :
    (e.keep s').store.active.length = e.store.active.length := by
  have hcount := e.length_active_keep s'
  rw [hid, KeyedList.key_of_find? hget, hasActive_of_stored hget ha, ha'] at hcount
  omega

/-- An active session is kept, but not active any more. -/
theorem length_active_keep_of_over {s' : Session} (hget : e.store.get? id = some s)
    (ha : s.isActive = true) (hid : s'.id = s.id) (hover : s'.isActive = false) :
    (e.keep s').store.active.length + 1 = e.store.active.length := by
  have hcount := e.length_active_keep s'
  rw [hid, KeyedList.key_of_find? hget, hasActive_of_stored hget ha, hover] at hcount
  simpa using hcount

/-- Dropping stale sessions drops no active one. -/
theorem length_active_dropStale (t : SessionStore) (retention : Int) (now : Instant) :
    (t.dropStale retention now).active.length = t.active.length := by
  rw [length_active, length_active, SessionStore.dropStale, KeyedList.filter, List.countP_filter]
  refine List.countP_congr fun s _ => ?_
  cases h : s.isActive <;> simp [SessionStore.isStale, h]

end Engine

/-! ## Uses of flows -/

namespace Registry

/-- A use counts for one flow, as its last one. -/
theorem usage?_countUse (r : Registry) (id flowId : String) (now : Instant) :
    (r.countUse id now).usage? flowId =
      if id = flowId then some ⟨id, r.useCount id + 1, some now⟩ else r.usage? flowId := by
  refine (KeyedList.find?_put ..).trans ?_
  split
  · rw [useCount]
    cases r.usage? id <;> rfl
  · rfl

theorem useCount_countUse (r : Registry) (id flowId : String) (now : Instant) :
    (r.countUse id now).useCount flowId =
      r.useCount flowId + if id = flowId then 1 else 0 := by
  rw [useCount, usage?_countUse]
  by_cases h : id = flowId
  · rw [if_pos h, if_pos h, ← h]
    rfl
  · rw [if_neg h, if_neg h]
    rfl

/-- A flow that is published for the first time has not been used. -/
theorem usage?_publish (r : Registry) (f : Flow) (flowId : String) :
    (r.publish f).2.usage? flowId =
      (r.usage? flowId).or (if f.id = flowId then some (.unused f.id) else none) := by
  simp only [usage?, publish, KeyedList.putNew, id_numbered]
  by_cases hflow : f.id = flowId
  · subst hflow
    cases hu : r.usage.find? f.id <;> simp [KeyedList.contains, Usage.unused, hu]
  · rw [if_neg hflow, Option.or_none]
    split
    · rfl
    · simp [KeyedList.find?_put, Usage.unused, hflow]

/-- A flow that is published has been completed as often as before. -/
theorem useCount_publish (r : Registry) (f : Flow) (flowId : String) :
    (r.publish f).2.useCount flowId = r.useCount flowId := by
  rw [useCount, useCount, usage?_publish]
  cases r.usage? flowId with
  | some u => rfl
  | none => by_cases hflow : f.id = flowId <;> simp [hflow, Usage.unused]

end Registry

/-! ## What deeds enter -/

namespace Engine

theorem Calm.spares (h : e.Calm e') : e.Spares [] e' where
  told := h.silent.tells
  types := nofun
  counts := h.silent.counts
  active := by rw [h.alike.store]
  uses := fun flowId => by rw [Registry.useCount, Registry.usage?, h.silent.usage]; rfl

/-- The end of a session is entered when it is kept, counted and told. -/
theorem enters_ended {s' : Session} {data : List (String × Value)} {registry : Registry}
    (hget : e.store.get? id = some s) (ha : s.isActive = true) (hid : s'.id = s.id)
    (hover : s'.isActive = false) (hc : c.gain = -1)
    (huses : ∀ flowId, registry.useCount flowId = e.registry.useCount flowId +
      if c = .completed ∧ s'.flowId = flowId then 1 else 0) :
    e.Enters c (.ofSession c.type s' none data e.now)
      (((({ e.keep s' with registry } : Engine).tally .activeSessions (-1)).tally
        (.sessions c) 1).announce c.type s' none data) where
  told := rfl
  type := rfl
  gauge := by simp [announce, tally, keep, Metrics.count_add, hc]
  active := by
    have hcount := length_active_keep_of_over hget ha hid hover
    show ((e.keep s').store.active.length : Int) = _
    rw [hc]
    omega
  counters := fun d => by
    by_cases hd : c = d
    · simp [announce, tally, keep, Metrics.count_add, hd]
    · simp [announce, tally, keep, Metrics.count_add, hd, Ne.symm hd]
  uses := huses

/-- A session that stays active may be kept, and something may be told. -/
theorem spares_kept {s' : Session} (hget : e.store.get? id = some s) (ha : s.isActive = true)
    (hid : s'.id = s.id) (ha' : s'.isActive = true) : e.Spares [] (e.keep s') where
  told := tells_nil rfl
  types := nofun
  counts := fun _ _ => rfl
  active := length_active_keep_of_isActive hget ha hid ha'
  uses := fun _ => rfl

theorem Spares.announce (h : e.Spares new e₁) (type : EventType)
    (htype : ∀ c : LifeEvent, type ≠ c.type) (s : Session) (node : Option String)
    (data : List (String × Value)) :
    e.Spares (new ++ [.ofSession type s node data e₁.now]) (e₁.announce type s node data) where
  told := h.told.trans rfl
  types := fun event hmem => by
    rcases List.mem_append.1 hmem with hmem | hmem
    · exact h.types event hmem
    · rw [List.mem_singleton.1 hmem]
      exact htype
  counts := h.counts
  active := h.active
  uses := h.uses

theorem Spares.trans {more : List Event} (h : e.Spares new e₁) (h' : e₁.Spares more e') :
    e.Spares (new ++ more) e' where
  told := h.told.trans h'.told
  types := fun event hmem => (List.mem_append.1 hmem).elim (h.types event) (h'.types event)
  counts := fun m hm => (h'.counts m hm).trans (h.counts m hm)
  active := h'.active.trans h.active
  uses := fun flowId => (h'.uses flowId).trans (h.uses flowId)

theorem Spares.calm_right (h : e.Spares new e₁) (hc : e₁.Calm e') : e.Spares new e' where
  told := by
    have htold := h.told.trans hc.silent.tells
    rwa [List.append_nil] at htold
  types := h.types
  counts := fun m hm => (hc.silent.counts m hm).trans (h.counts m hm)
  active := by rw [hc.alike.store, h.active]
  uses := fun flowId => (hc.spares.uses flowId).trans (h.uses flowId)

theorem Enters.calm_right (h : e.Enters c event e₁) (hc : e₁.Calm e') : e.Enters c event e' where
  told := h.told.trans hc.silent.tells
  type := h.type
  gauge := hc.spares.gauge.trans h.gauge
  active := by rw [hc.alike.store, h.active]
  counters := fun d => (hc.spares.counter d).trans (h.counters d)
  uses := fun flowId => (hc.spares.uses flowId).trans (h.uses flowId)

/-- An active session stays active on the move. -/
theorem spares_moved {n : Node} {o : Outcome} (hget : e.store.get? id = some s)
    (ha : s.isActive = true) : ∃ new, e.Spares new (e.moved s n o) := by
  have hkept : e.Spares [] (e.keep (s.movedTo n e.now)) := spares_kept hget ha rfl ha
  have hcounted := hkept.calm_right
    (calm_tally _ (m := .visits n.kind) 1 fun hm => hm)
  have htold := hcounted.announce .nodeVisited (fun c => by cases c <;> decide)
    (s.movedTo n e.now) none [("node_type", .text n.kind.text)]
  have hstored : (((e.keep (s.movedTo n e.now)).tally (.visits n.kind) 1).announce .nodeVisited
      (s.movedTo n e.now) none [("node_type", .text n.kind.text)]).store.get? s.id =
        some (s.movedTo n e.now) := (e.get?_keep _ _).trans (if_pos rfl)
  exact ⟨_, htold.trans (spares_kept hstored ha rfl ha)⟩

theorem spares_requested {n : Node} : ∃ new, e.Spares new (e.requested n s) := by
  have htold := (Calm.refl e).spares.announce .actionInitiated
    (fun c => by cases c <;> decide) s (some n.id) [("action", .text n.kind.text)]
  unfold requested
  split
  · exact ⟨_, htold.told, htold.types, htold.counts, htold.active, htold.uses⟩
  · exact ⟨_, htold⟩

theorem enters_opened (hnew : e.store.get? s.id = none) (ha : s.isActive = true) :
    ∃ event, e.Enters .started event (e.opened s) := by
  refine ⟨_, rfl, rfl, ?_, ?_, fun d => ?_, fun flowId => by simp [opened, announce, tally, keep]⟩
  · simp [opened, announce, tally, keep, Metrics.count_add, LifeEvent.gain]
  · have hcount := e.length_active_keep s
    rw [hasActive, hnew, ha] at hcount
    show ((e.keep s).store.active.length : Int) = _
    simp [LifeEvent.gain] at hcount ⊢
    omega
  · cases d <;> simp [opened, announce, tally, keep, Metrics.count_add]

/-- **Entries.**  A deed is a change in the life of a session, which is entered into
every account, or leaves all of them as they are. -/
theorem Deed.entries (h : e.Deed made about e') :
    (∃ new, e.Spares new e') ∨ ∃ c event, e.Enters c event e' := by
  cases h with
  | rests => exact Or.inl ⟨[], (Calm.refl e).spares⟩
  | numbers => exact Or.inl ⟨[], tells_nil rfl, nofun, fun _ _ => rfl, rfl, fun _ => rfl⟩
  | opens hmade hnew ha => exact Or.inr ⟨.started, enters_opened hnew ha⟩
  | @receives id s s' input hget ha hr =>
      obtain ⟨expiry, -, rfl⟩ := Session.received?_eq_some hr
      have hkept : e.Spares [] (e.keep ((s.record input e.now).expiringAt expiry)) :=
        spares_kept hget ha rfl ha
      exact Or.inl ⟨_, hkept.announce .inputReceived (fun c => by cases c <;> decide) _ _ _⟩
  | overruns hget ha hr => exact Or.inl ⟨[], spares_kept hget ha rfl ha⟩
  | asks hget ha => exact Or.inl spares_requested
  | moves hget ha => exact Or.inl (spares_moved hget ha)
  | @finishes id s captured hget ha =>
      refine Or.inr ⟨.completed, _, enters_ended hget ha rfl rfl rfl fun flowId => ?_⟩
      simp [Registry.useCount_countUse, keep, Session.finishedAt]
  | complains hget ha =>
      exact Or.inl ⟨_, (Calm.refl e).spares.announce .errorOccurred
        (fun c => by cases c <;> decide) _ _ _⟩
  | lapses hget ha hx =>
      refine Or.inr ⟨.expired, _, enters_ended hget ha rfl rfl rfl fun flowId => ?_⟩
      simp
  | terminates hget ha =>
      refine Or.inr ⟨.terminated, _, enters_ended hget ha rfl rfl rfl fun flowId => ?_⟩
      simp

/-- The accounts balance after every deed if they have balanced before. -/
theorem Balanced.does (h : e.Balanced es) (hd : e.Does made about e') :
    ∃ new, e.Tells new e' ∧ e'.Balanced (es ++ new) := by
  obtain ⟨e₁, hdeed, hcalm⟩ := hd
  rcases hdeed.entries with ⟨new, hspares⟩ | ⟨c, event, henters⟩
  · have hspares' := hspares.calm_right hcalm
    exact ⟨new, hspares'.told, h.spare hspares'⟩
  · have henters' := henters.calm_right hcalm
    exact ⟨[event], henters'.told, h.enter henters'⟩

theorem balanced_fresh (settings : Settings) (sink : Option Sink) (executor : Option Executor)
    (now : Instant) : (fresh settings sink executor now).Balanced [] where
  gauge := rfl
  balance := rfl
  uses := fun _ => rfl
  counters := fun _ => rfl

/-- No account depends on what the sink has made of the events. -/
theorem Balanced.withSink (h : e.Balanced es) (sink : Option Sink) :
    ({ e with sink } : Engine).Balanced es := ⟨h.gauge, h.balance, h.uses, h.counters⟩

/-- Nothing is entered when a flow is published. -/
theorem spares_publish (f : Flow) (e : Engine) :
    e.Spares [] ((Operation.publish f).perform.start e).2 := by
  obtain ⟨e₁, hcalm, hstart | hstart⟩ := publish_cases f e
  · rw [hstart]
    exact hcalm.spares
  · rw [hstart]
    have hstored : e₁.Spares [] { e₁ with registry := (e₁.registry.publish f).2 } :=
      ⟨tells_nil rfl, nofun, fun _ _ => rfl, rfl, e₁.registry.useCount_publish f⟩
    exact hcalm.spares.trans hstored

/-- Nothing is entered when stale sessions are dropped. -/
theorem spares_drop (e : Engine) (retention : Int) (now : Instant) :
    e.Spares [] { e with store := e.store.dropStale retention now } :=
  ⟨tells_nil rfl, nofun, fun _ _ => rfl, length_active_dropStale e.store retention now,
    fun _ => rfl⟩

end Engine

/-! ## Runs -/

namespace Service

variable {w : Service}

/-- The accounts balance after every move if they have balanced before. -/
theorem Orderly.balanced_make (h : w.Orderly) (hb : w.engine.Balanced es) (m : Move) :
    ∃ new, w.engine.Tells new (w.make m).engine ∧ (w.make m).engine.Balanced (es ++ new) := by
  have hspared : ∀ {e' : Engine}, w.engine.Spares [] e' →
      ∃ new, w.engine.Tells new e' ∧ e'.Balanced (es ++ new) :=
    fun hs => ⟨[], hs.told, hb.spare hs⟩
  cases m with
  | turnClock now => exact hspared ⟨Engine.tells_nil rfl, nofun, fun _ _ => rfl, rfl, fun _ => rfl⟩
  | publish f => exact hspared (Engine.spares_publish f w.engine)
  | drop retention now => exact hspared (w.engine.spares_drop retention now)
  | begin call => exact hspared (Engine.Calm.refl w.engine).spares
  | proceed i =>
      show ∃ new, w.engine.Tells new (w.proceed i).engine ∧
        (w.proceed i).engine.Balanced (es ++ new)
      rcases proceed_cases w i with ⟨hsame, -⟩ | ⟨t, p, e', ht, -, -, hg, hgoes, -⟩
      · rw [hsame]
        exact hspared (Engine.Calm.refl w.engine).spares
      · rw [hgoes]
        exact hb.does (h.does ht hg)

theorem Orderly.balanced_after (h : w.Orderly) (hb : w.engine.Balanced es) (ms : List Move) :
    ∃ new, w.engine.Tells new (w.after ms).engine ∧ (w.after ms).engine.Balanced (es ++ new) := by
  induction ms generalizing w es with
  | nil => exact ⟨[], Engine.tells_nil rfl, by rwa [List.append_nil]⟩
  | cons m ms ih =>
      obtain ⟨new, htold, hnew⟩ := h.balanced_make hb m
      obtain ⟨more, htold', hmore⟩ := ih (h.make m) hnew
      exact ⟨new ++ more, htold.trans htold', by rwa [← List.append_assoc]⟩

/-- **The accounts.**  After every run of operations side by side all accounts of
sessions balance with each other and with the events of the run: the store, the
gauge of active sessions, the counters, and the uses of each flow.  The events are
the ones that each sink is told, whichever it is. -/
theorem accounts_balance (settings : Settings) (executor : Option Executor) (now : Instant)
    (ms : List Move) : ∃ es, ∀ sink : Option Sink,
      ((fresh settings sink executor now).after ms).engine.sink = Engine.toldTo es sink ∧
      ((fresh settings sink executor now).after ms).engine.Balanced es := by
  obtain ⟨es, hes⟩ := after_fresh_withSink settings executor now ms
  -- a memory without limit tells which events these are
  obtain ⟨new, htold, hbalanced⟩ := (orderly_fresh settings (some (.memory none [])) executor
    now).balanced_after (Engine.balanced_fresh settings _ executor now) ms
  have hrecorded : ((fresh settings (some (.memory none [])) executor now).after ms).engine.sink =
      Engine.toldTo es (some (.memory none [])) := by
    rw [hes]
    rfl
  have hnew : new = es := by
    have htold' : _ = Engine.toldTo new (some (.memory none [])) := htold
    rw [hrecorded, Engine.toldTo_memory, Engine.toldTo_memory] at htold'
    simpa using htold'.symm
  refine ⟨es, fun sink => ?_⟩
  rw [hes] at hbalanced ⊢
  rw [List.nil_append, hnew] at hbalanced
  exact ⟨rfl, hbalanced.withSink (Engine.toldTo es sink)⟩

end Service

end UssdFlows
