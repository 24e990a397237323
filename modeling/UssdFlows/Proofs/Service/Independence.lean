import UssdFlows.Proofs.Engine.Writes
import UssdFlows.Proofs.Service.Accounts
import UssdFlows.Proofs.Service.Charges
import UssdFlows.Proofs.Service.Closings

/-!
# Sessions do not depend on each other

Two programs are *independent* (`EngineM.Independent`) if it makes no difference
which of them comes first: each gives the same result either way, and what they
leave agrees (`Engine.Agrees`): the same store, the same flows, the same uses of
flows and counts, and for every session the same events in the same order.

Operations on two stored sessions are independent, and so are an operation on a
stored session and the publication of a flow, even of a new version of the flow
that the session walks through (`Service.Reachable.sessions_independent`).  Both
rest on the writes of an operation: those of one session do not show to another
(`Engine.Shows.writeAll_other`), writes of two sessions may be made in either
order (`Engine.agrees_swap`), and no flow is stored as the version that a session is
pinned to (`Service.Sound.edition_numbered_ne`).
-/

namespace UssdFlows

open EngineM

/-! ## What writes come to -/

namespace Write

/-- The session that is kept. -/
def kept? : Write → Option Session
  | keep s => some s
  | _ => none

/-- What is added to a count. -/
def gain (m : Metric) : Write → Int
  | add k n => if k = m then n else 0
  | _ => 0

/-- What some writes add to a count. -/
def gains (m : Metric) : List Write → Int
  | [] => 0
  | w :: rest => w.gain m + gains m rest

theorem gains_append (m : Metric) (ws vs : List Write) :
    gains m (ws ++ vs) = gains m ws + gains m vs := by
  induction ws with
  | nil => exact (Int.zero_add _).symm
  | cons w rest ih => rw [List.cons_append, gains, gains, ih, Int.add_assoc]

/-- The flow that was completed. -/
def used? : Write → Option String
  | use flowId _ => some flowId
  | _ => none

/-- The event that is told. -/
def event? : Write → Option Event
  | tell event => some event
  | _ => none

end Write

namespace Engine

variable {e e' e₁ : Engine} {id id' : String} {ed ed' : String × Int} {now : Instant}
  {ws vs : List Write}

theorem store_writeAll (e : Engine) (ws : List Write) :
    (e.writeAll ws).store.sessions = e.store.sessions.putAll (ws.filterMap Write.kept?) := by
  induction ws generalizing e with
  | nil => rfl
  | cons w rest ih =>
      refine (ih (e.write w)).trans ?_
      cases w <;> rfl

theorem count_writeAll (e : Engine) (ws : List Write) (m : Metric) :
    (e.writeAll ws).metrics.count m = e.metrics.count m + Write.gains m ws := by
  induction ws generalizing e with
  | nil => exact (Int.add_zero _).symm
  | cons w rest ih =>
      have hwrite : (e.write w).metrics.count m = e.metrics.count m + w.gain m := by
        cases w with
        | add k n =>
            refine (Metrics.count_add ..).trans ?_
            rw [Write.gain]
            split
            · rfl
            · rw [Int.add_zero]
        | _ => exact (Int.add_zero _).symm
      refine (ih (e.write w)).trans ?_
      rw [hwrite, Write.gains, Int.add_assoc]

theorem sink_writeAll (e : Engine) (ws : List Write) :
    (e.writeAll ws).sink = toldTo (ws.filterMap Write.event?) e.sink := by
  induction ws generalizing e with
  | nil => exact (toldTo_nil _).symm
  | cons w rest ih =>
      refine (ih (e.write w)).trans ?_
      cases w with
      | tell event =>
          show toldTo _ (toldTo [event] e.sink) = _
          rw [← toldTo_append]
          rfl
      | _ => rfl

/-- The sessions that are kept are the one that the writes are of. -/
theorem id_of_kept (hws : ∀ w ∈ ws, w.IsOf id ed now) :
    ∀ s ∈ ws.filterMap Write.kept?, s.id = id := by
  intro s hs
  obtain ⟨w, hw, hkept⟩ := List.mem_filterMap.1 hs
  have hof := hws w hw
  cases w <;> cases hkept
  exact hof.sameId

/-- So are the sessions that are told of. -/
theorem sessionId_of_told (hws : ∀ w ∈ ws, w.IsOf id ed now) :
    ∀ event ∈ ws.filterMap Write.event?, event.sessionId = id := by
  intro event hevent
  obtain ⟨w, hw, htold⟩ := List.mem_filterMap.1 hevent
  have hof := hws w hw
  cases w <;> cases htold
  exact hof

/-- A flow that was completed has been used so many times more, the last time just
now. -/
theorem usage?_writeAll (e : Engine) (hws : ∀ flowId time, Write.use flowId time ∈ ws → time = now)
    (flowId : String) :
    (e.writeAll ws).registry.usage? flowId =
      if flowId ∈ ws.filterMap Write.used? then
        some ⟨flowId, e.registry.useCount flowId + (ws.filterMap Write.used?).count flowId, some now⟩
      else e.registry.usage? flowId := by
  induction ws generalizing e with
  | nil => rfl
  | cons w rest ih =>
      have hrest : ∀ flowId time, Write.use flowId time ∈ rest → time = now :=
        fun flowId time hmem => hws flowId time (List.mem_cons_of_mem _ hmem)
      refine (ih (e.write w) hrest).trans ?_
      cases w with
      | use other time =>
          -- a later use of the flow sets the same time again, since all are made just now
          obtain rfl := hws other time (List.mem_cons_self ..)
          have hused : (Write.use other time :: rest).filterMap Write.used? =
              other :: rest.filterMap Write.used? := rfl
          simp only [hused, List.mem_cons, List.count_cons, write, Registry.usage?_countUse,
            Registry.useCount_countUse]
          by_cases hother : other = flowId
          · subst hother
            by_cases hmem : other ∈ rest.filterMap Write.used?
            · simp [hmem, Nat.add_right_comm, Nat.add_assoc]
            · simp [hmem, List.count_eq_zero]
          · simp [hother, Ne.symm hother]
      | _ => rfl

/-! ## Engines that agree -/

/-- Two engines hold the same sessions and flows, with the same uses and counts. -/
structure Agrees (e e' : Engine) : Prop where
  store : e'.store = e.store
  versions : e'.registry.versions = e.registry.versions
  current : e'.registry.current = e.registry.current
  usage : ∀ flowId, e'.registry.usage? flowId = e.registry.usage? flowId
  counts : ∀ m, e'.metrics.count m = e.metrics.count m

theorem Mirrors.agrees (h : e.Mirrors e') : e.Agrees e' := by
  rw [Mirrors] at h
  generalize e'.locks = l at h
  subst h
  exact ⟨rfl, rfl, rfl, fun _ => rfl, fun _ => rfl⟩

theorem Agrees.trans (h : e.Agrees e₁) (h' : e₁.Agrees e') : e.Agrees e' where
  store := h'.store.trans h.store
  versions := h'.versions.trans h.versions
  current := h'.current.trans h.current
  usage := fun flowId => (h'.usage flowId).trans (h.usage flowId)
  counts := fun m => (h'.counts m).trans (h.counts m)

/-- Writes of two sessions, one of which is stored, may be made in either order. -/
theorem agrees_swap (e : Engine) (hne : id ≠ id') (hws : ∀ w ∈ ws, w.IsOf id ed now)
    (hvs : ∀ w ∈ vs, w.IsOf id' ed' now) (hstored : (e.store.get? id).isSome = true) :
    (e.writeAll (ws ++ vs)).Agrees (e.writeAll (vs ++ ws)) := by
  have hkept : ∀ s ∈ ws.filterMap Write.kept?, s.id = id := id_of_kept hws
  have hkept' : ∀ s ∈ vs.filterMap Write.kept?, s.id = id' := id_of_kept hvs
  have htimes : ∀ flowId time, Write.use flowId time ∈ ws ++ vs → time = now := by
    intro flowId time hmem
    exact (List.mem_append.1 hmem).elim (fun h => (hws _ h).2) fun h => (hvs _ h).2
  have htimes' : ∀ flowId time, Write.use flowId time ∈ vs ++ ws → time = now := by
    intro flowId time hmem
    exact htimes flowId time (List.mem_append.2 (List.mem_append.1 hmem).symm)
  have hsame := e.sameService_writeAll (ws ++ vs)
  have hsame' := e.sameService_writeAll (vs ++ ws)
  refine ⟨?_, ?_, ?_, fun flowId => ?_, fun m => ?_⟩
  · refine congrArg SessionStore.mk ?_
    rw [writeAll_append, writeAll_append, store_writeAll, store_writeAll, store_writeAll,
      store_writeAll]
    -- the first session keeps its place in the store, since it is stored already
    refine (KeyedList.putAll_comm _ (fun s hs s' hs' => ?_) fun s hs => ?_).symm
    · rw [hkept s hs, hkept' s' hs']
      exact hne
    · rw [hkept s hs]
      exact KeyedList.contains_iff.1 hstored
  · exact hsame'.versions.trans hsame.versions.symm
  · exact hsame'.current.trans hsame.current.symm
  · rw [usage?_writeAll e htimes, usage?_writeAll e htimes', List.filterMap_append,
      List.filterMap_append, List.count_append, List.count_append, Nat.add_comm (List.count ..)]
    simp only [List.mem_append, or_comm]
  · rw [count_writeAll, count_writeAll, Write.gains_append, Write.gains_append,
      Int.add_comm (Write.gains m vs)]

/-! ## Two programs -/

/-- The engine after two programs one after the other, whether they fail or not. -/
def afterBoth {α β : Type} (e : Engine) (x : EngineM α) (y : EngineM β) : Engine :=
  (y.start (x.start e).2).2

theorem sameService_withSink (e : Engine) (sink : Option Sink) : e.SameService { e with sink } :=
  ⟨rfl, rfl, rfl, rfl, rfl, rfl, rfl⟩

/-- What is told by writes. -/
theorem Mirrors.tells (h : (e.writeAll ws).Mirrors e') : e.Tells (ws.filterMap Write.event?) e' :=
  h.sink.trans (sink_writeAll ..)

end Engine

/-- It makes no difference which of two programs comes first. -/
structure EngineM.Independent {α β : Type} (x : EngineM α) (y : EngineM β) (e : Engine) : Prop where
  /-- Each gives the same result, or fails in the same way. -/
  first : (x.start (y.start e).2).1 = (x.start e).1
  second : (y.start (x.start e).2).1 = (y.start e).1
  left : (e.afterBoth x y).Agrees (e.afterBoth y x)
  /-- Whichever the sink is, it is told the same of every session. -/
  told : ∃ es es',
    (∀ sink, ({ e with sink } : Engine).Tells es (({ e with sink } : Engine).afterBoth x y)) ∧
    (∀ sink, ({ e with sink } : Engine).Tells es' (({ e with sink } : Engine).afterBoth y x)) ∧
    ∀ id, Sink.select none (some id) es' = Sink.select none (some id) es

/-! ## Two sessions -/

section TwoSessions

variable {α β : Type} {x : EngineM α} {y : EngineM β} {e e' : Engine} {id id' : String}
  {ed ed' : String × Int} {now : Instant} {ws vs : List Write} {r : Except EngineError α}
  {r' : Except EngineError β}

/-- A program comes to the same after one that writes of another session. -/
theorem EngineM.writes_after (hne : id ≠ id') (hws : ∀ w ∈ ws, w.IsOf id ed now)
    (hx : (e'.writeAll ws).Mirrors (x.start e').2)
    (hy : ∀ e', e.Shows id' ed' e' → (y.start e').1 = r' ∧ (e'.writeAll vs).Mirrors (y.start e').2)
    (h : e.Shows id' ed' e') : (y.start (x.start e').2).1 = r' ∧
      (e'.writeAll (ws ++ vs)).Mirrors (e'.afterBoth x y) := by
  obtain ⟨hresult, hafter⟩ := hy _ ((h.writeAll_other hne hws).mirrors hx)
  rw [Engine.writeAll_append]
  exact ⟨hresult, (hx.writeAll vs).trans hafter⟩

/-- The events of two sessions, each in its order. -/
theorem select_append_comm {xs ys : List Event} (hne : id ≠ id')
    (hxs : ∀ event ∈ xs, event.sessionId = id) (hys : ∀ event ∈ ys, event.sessionId = id')
    (key : String) :
    Sink.select none (some key) (ys ++ xs) = Sink.select none (some key) (xs ++ ys) := by
  rw [select_append, select_append]
  by_cases hkey : key = id
  · have hnone : Sink.select none (some key) ys = [] := select_eq_nil fun event hevent => by
      rw [hys event hevent, hkey]
      exact hne.symm
    rw [hnone, List.nil_append, List.append_nil]
  · have hnone : Sink.select none (some key) xs = [] := select_eq_nil fun event hevent => by
      rw [hxs event hevent]
      exact Ne.symm hkey
    rw [hnone, List.nil_append, List.append_nil]

/-- **Two sessions.**  Programs that are local to two sessions are independent. -/
theorem EngineM.Local.independent {p : α → Prop} {q : β → Prop} (hx : Local id ed p x)
    (hy : Local id' ed' q y) (hne : id ≠ id') (h : e.Shows id ed e) (h' : e.Shows id' ed' e)
    (hstored : (e.store.get? id).isSome = true) : x.Independent y e := by
  obtain ⟨r, ws, -, hws, hx⟩ := hx.writes e h
  obtain ⟨r', vs, -, hvs, hy⟩ := hy.writes e h'
  -- what each program comes to after the other, with any sink
  have hxy := fun e' (h : e.Shows id ed e') (h' : e.Shows id' ed' e') =>
    writes_after hne hws (hx e' h).2 hy h'
  have hyx := fun e' (h : e.Shows id ed e') (h' : e.Shows id' ed' e') =>
    writes_after hne.symm hvs (hy e' h').2 hx h
  have hsink : ∀ sink, e.Shows id ed { e with sink } :=
    fun sink => h.of_same (e.sameService_withSink sink) rfl
  have hsink' : ∀ sink, e.Shows id' ed' { e with sink } :=
    fun sink => h'.of_same (e.sameService_withSink sink) rfl
  refine ⟨?_, ?_, ?_, _, _, fun sink => (hxy _ (hsink sink) (hsink' sink)).2.tells,
    fun sink => (hyx _ (hsink sink) (hsink' sink)).2.tells, fun key => ?_⟩
  · rw [(hyx e h h').1, (hx e h).1]
  · rw [(hxy e h h').1, (hy e h').1]
  · have hswap := e.agrees_swap hne hws hvs hstored
    exact ((hxy e h h').2.symm.agrees.trans hswap).trans (hyx e h h').2.agrees
  · rw [List.filterMap_append, List.filterMap_append]
    exact select_append_comm hne (Engine.sessionId_of_told hws) (Engine.sessionId_of_told hvs) key

end TwoSessions

/-! ## A session and a publication -/

/-- The version that a flow is stored as depends only on the current versions. -/
theorem Registry.numbered_congr {r r' : Registry} (h : r'.current = r.current) (f : Flow) :
    r'.numbered f = r.numbered f := by
  simp only [numbered, currentVersion?, h]

namespace Engine

variable {e e' : Engine} {id : String} {ed : String × Int} {now : Instant} {ws : List Write}
  {f : Flow} {valid : Bool}

/-- The engine when a flow was handed in that is valid or not. -/
def handedIn (e : Engine) (f : Flow) (valid : Bool) : Engine :=
  { e.tally (.validations valid) 1 with
    registry := if valid then (e.registry.publish f).2 else e.registry }

/-- The publication of a flow comes to the same on an engine for the same service. -/
theorem exists_handedIn (f : Flow) (e : Engine) : ∃ valid, ∀ e', e.SameService e' →
    (publishFlow f).start e' = (((publishFlow f).start e).1, e'.handedIn f valid) := by
  refine ⟨(f.report { Limits.standard with promptLength := e.settings.maxPromptLength }).isValid,
    fun e' hs => ?_⟩
  have hnumbered : (e'.registry.publish f).1 = (e.registry.publish f).1 :=
    Registry.numbered_congr hs.current f
  simp only [start_publishFlow, hs.settings, hnumbered, handedIn]
  split <;> rfl

theorem Mirrors.handedIn (h : e.Mirrors e') (f : Flow) (valid : Bool) :
    (e.handedIn f valid).Mirrors (e'.handedIn f valid) := by
  rw [Mirrors] at h
  generalize e'.locks = l at h
  subst h
  rfl

theorem versions_handedIn (e : Engine) (f : Flow) (valid : Bool) :
    (e.handedIn f valid).registry.versions =
      if valid then e.registry.versions.put (e.registry.numbered f) else e.registry.versions := by
  cases valid <;> rfl

theorem current_handedIn (e : Engine) (f : Flow) (valid : Bool) :
    (e.handedIn f valid).registry.current =
      if valid then e.registry.current.put ((e.registry.numbered f).id, (e.registry.numbered f).version)
      else e.registry.current := by
  cases valid <;> rfl

theorem usage?_handedIn (e : Engine) (f : Flow) (valid : Bool) (flowId : String) :
    (e.handedIn f valid).registry.usage? flowId = (e.registry.usage? flowId).or
      (if valid = true ∧ f.id = flowId then some (.unused f.id) else none) := by
  cases valid with
  | false => exact (Option.or_none).symm
  | true =>
      refine (Registry.usage?_publish ..).trans ?_
      simp only [true_and]

theorem useCount_handedIn (e : Engine) (f : Flow) (valid : Bool) (flowId : String) :
    (e.handedIn f valid).registry.useCount flowId = e.registry.useCount flowId := by
  cases valid with
  | false => rfl
  | true => exact Registry.useCount_publish ..

theorem count_handedIn (e : Engine) (f : Flow) (valid : Bool) (m : Metric) :
    (e.handedIn f valid).metrics.count m =
      e.metrics.count m + if Metric.validations valid = m then 1 else 0 := by
  refine (Metrics.count_add ..).trans ?_
  split
  · rfl
  · exact (Int.add_zero _).symm

/-- A session is shown the same if a flow is stored as another version than its own. -/
theorem Shows.handedIn (h : e.Shows id ed e') (hnew : (e'.registry.numbered f).edition ≠ ed) :
    e.Shows id ed (e'.handedIn f valid) := by
  have hflow : (e'.handedIn f valid).registry.versions.find? ed = e'.registry.versions.find? ed := by
    rw [versions_handedIn]
    split
    · rw [KeyedList.find?_put, if_neg hnew]
    · rfl
  exact ⟨h.settings, h.now, h.executor, h.steady, h.replaced, h.session, h.pinned,
    hflow.trans h.flow⟩

/-- A flow may be handed in before or after some writes. -/
theorem agrees_handedIn (e : Engine) (f : Flow) (valid : Bool)
    (hws : ∀ flowId time, Write.use flowId time ∈ ws → time = now) :
    ((e.writeAll ws).handedIn f valid).Agrees ((e.handedIn f valid).writeAll ws) := by
  have hsame := e.sameService_writeAll ws
  have hsame' := (e.handedIn f valid).sameService_writeAll ws
  have hnumbered := Registry.numbered_congr hsame.current f
  refine ⟨?_, ?_, ?_, fun flowId => ?_, fun m => ?_⟩
  · refine congrArg SessionStore.mk ((store_writeAll ..).trans ?_)
    exact (store_writeAll e ws).symm
  · rw [hsame'.versions, versions_handedIn, versions_handedIn, hnumbered, hsame.versions]
  · rw [hsame'.current, current_handedIn, current_handedIn, hnumbered, hsame.current]
  · rw [usage?_writeAll _ hws, usage?_handedIn, usage?_handedIn, usage?_writeAll _ hws,
      useCount_handedIn]
    split <;> rfl
  · rw [count_writeAll, count_handedIn, count_handedIn, count_writeAll, Int.add_right_comm]

end Engine

/-- **A session and a publication.**  A program that is local to a session is
independent of a flow that is stored as another version than that of the session. -/
theorem EngineM.Local.independent_publishFlow {α : Type} {x : EngineM α} {e : Engine} {id : String}
    {ed : String × Int} {p : α → Prop} (hx : Local id ed p x) (h : e.Shows id ed e) (f : Flow)
    (hnew : (e.registry.numbered f).edition ≠ ed) : x.Independent (publishFlow f) e := by
  obtain ⟨r, ws, -, hws, hx⟩ := hx.writes e h
  obtain ⟨valid, hpublish⟩ := e.exists_handedIn f
  have htimes : ∀ flowId time, Write.use flowId time ∈ ws → time = e.now :=
    fun flowId time hmem => (hws _ hmem).2
  have hsame : ∀ e', e.Shows id ed e' → e.SameService e' → e.SameService (x.start e').2 :=
    fun e' h hs => (hs.trans (e'.sameService_writeAll ws)).trans (hx e' h).2.sameService
  have hown := hpublish e (.refl e)
  have hlater := hpublish _ (hsame e h (.refl e))
  have hshows : e.Shows id ed (e.handedIn f valid) := h.handedIn hnew
  have hsink : ∀ sink, e.Shows id ed { e with sink } :=
    fun sink => h.of_same (e.sameService_withSink sink) rfl
  refine ⟨?_, ?_, ?_, ws.filterMap Write.event?, ws.filterMap Write.event?, fun sink => ?_,
    fun sink => ?_, fun _ => rfl⟩
  · rw [hown, (hx _ hshows).1, (hx e h).1]
  · rw [hlater]
  · rw [Engine.afterBoth, Engine.afterBoth, hlater, hown]
    exact (((hx e h).2.handedIn f valid).symm.agrees.trans (e.agrees_handedIn f valid htimes)).trans
      (hx _ hshows).2.agrees
  · rw [Engine.afterBoth, hpublish _ (hsame _ (hsink sink) (e.sameService_withSink sink))]
    exact (hx _ (hsink sink)).2.tells
  · rw [Engine.afterBoth, hpublish _ (e.sameService_withSink sink)]
    exact (hx _ ((hsink sink).handedIn hnew)).2.tells

/-! ## Operations on stored sessions -/

/-- What can be asked of a stored session. -/
inductive Demand where
  | input (text : String)
  | terminate (reason : String)
  | expire (now : Instant)

namespace Demand

/-- What a demand gives back. -/
def Result : Demand → Type
  | input _ => Navigation
  | terminate _ => Session
  | expire _ => Bool

/-- Has an operation performed on a session. -/
def perform (id : String) : (d : Demand) → EngineM d.Result
  | input text => processInput id text
  | terminate reason => terminateSession id reason
  | expire now => expireSession id now

theorem local_perform (id : String) (ed : String × Int) (d : Demand) :
    Local id ed (fun _ => True) (d.perform id) := by
  cases d with
  | input text => exact local_processInput text
  | terminate reason => exact local_terminateSession reason
  | expire now => exact local_expireSession now

end Demand

namespace Service

variable {w : Service}

/-- A reachable engine shows its sessions if its executor is steady. -/
theorem Sound.shows {L : Ledger} (h : w.Sound L)
    (hsteady : ∀ x, w.engine.executor = some x → x.IsSteady) {id : String} {s : Session}
    (hget : w.engine.store.get? id = some s) : w.engine.Shows id s.edition w.engine where
  settings := rfl
  now := rfl
  executor := rfl
  steady := hsteady
  replaced := h.engine.replaced
  session := rfl
  pinned := fun s' hs' => by
    rw [hget, Option.some.injEq] at hs'
    rw [hs']
  flow := rfl

/-- No flow is stored as a version that a session is pinned to. -/
theorem Sound.edition_numbered_ne {L : Ledger} (h : w.Sound L) {id : String} {s : Session}
    (hget : w.engine.store.get? id = some s) (f : Flow) :
    (w.engine.registry.numbered f).edition ≠ s.edition := by
  intro heq
  have hpinned := (h.engine.placed id s hget).pinned
  obtain ⟨hid, hversion⟩ := Registry.edition_of_version? hpinned
  have hsameId : (w.engine.registry.numbered f).id = s.flowId := congrArg Prod.fst heq
  have hsameVersion : (w.engine.registry.numbered f).version = s.flowVersion :=
    congrArg Prod.snd heq
  rw [Registry.id_numbered] at hsameId
  have hlt := h.engine.registry.rising.lt_numbered (f := f) (Registry.mem_of_version? hpinned)
    (hid.trans hsameId.symm)
  omega

/-- **Independence.**  On a service whose executor is steady any operations on two
stored sessions are independent, and so are an operation on a stored session and the
publication of a flow, be it the one that the session walks through. -/
theorem Reachable.sessions_independent (hw : w.Reachable)
    (hsteady : ∀ x, w.engine.executor = some x → x.IsSteady) :
    (∀ id s id' s', w.engine.store.get? id = some s → w.engine.store.get? id' = some s' →
      id ≠ id' → ∀ d d' : Demand, (d.perform id).Independent (d'.perform id') w.engine) ∧
    ∀ id s, w.engine.store.get? id = some s → ∀ (d : Demand) (f : Flow),
      (d.perform id).Independent (publishFlow f) w.engine := by
  obtain ⟨L, h⟩ := hw.sound
  constructor
  · intro id s id' s' hget hget' hne d d'
    exact (d.local_perform id s.edition).independent (d'.local_perform id' s'.edition) hne
      (h.shows hsteady hget) (h.shows hsteady hget') (Option.isSome_of_eq_some hget)
  · intro id s hget d f
    exact (d.local_perform id s.edition).independent_publishFlow (h.shows hsteady hget) f
      (h.edition_numbered_ne hget f)

/-- A service where two sessions of one flow wait to pay. -/
def sharing : Service :=
  (((fresh .standard none (some (.simulated true)) ⟨0, Instant.zero_inRange⟩).perform
    (.publish .paying)).perform (.create ⟨"paying", "555", "*1#"⟩)).perform
      (.create ⟨"paying", "556", "*1#"⟩)

/-- Their payments are independent, and so are a payment and another version of the flow. -/
theorem sessions_independent_sharing :
    sharing.Reachable ∧ (∀ x, sharing.engine.executor = some x → x.IsSteady) ∧
      (sharing.engine.store.get? (sessionId 1)).isSome = true ∧
      (sharing.engine.store.get? (sessionId 2)).isSome = true ∧ sessionId 1 ≠ sessionId 2 ∧
      ((Demand.input "1").perform (sessionId 1)).Independent
        ((Demand.input "1").perform (sessionId 2)) sharing.engine ∧
      ((Demand.input "1").perform (sessionId 1)).Independent (publishFlow .paying) sharing.engine := by
  have hreachable : sharing.Reachable :=
    (((Reachable.fresh ..).step (.perform _ (.publish .paying))).step
      (.perform _ (.create ⟨"paying", "555", "*1#"⟩))).step
        (.perform _ (.create ⟨"paying", "556", "*1#"⟩))
  have hsteady : ∀ x, sharing.engine.executor = some x → x.IsSteady := by
    intro x hx
    obtain rfl := Option.some.inj hx
    exact fun _ _ _ => rfl
  have hstored : (sharing.engine.store.get? (sessionId 1)).isSome = true := by decide +kernel
  have hstored' : (sharing.engine.store.get? (sessionId 2)).isSome = true := by decide +kernel
  have hne : sessionId 1 ≠ sessionId 2 := by decide +kernel
  obtain ⟨s, hget⟩ := Option.isSome_iff_exists.1 hstored
  obtain ⟨s', hget'⟩ := Option.isSome_iff_exists.1 hstored'
  exact ⟨hreachable, hsteady, hstored, hstored', hne,
    (hreachable.sessions_independent hsteady).1 _ s _ s' hget hget' hne (.input "1") (.input "1"),
    (hreachable.sessions_independent hsteady).2 _ s hget (.input "1") .paying⟩

end Service

end UssdFlows
