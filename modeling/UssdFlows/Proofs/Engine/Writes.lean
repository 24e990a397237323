import UssdFlows.Proofs.Engine.Sinks
import UssdFlows.Proofs.Service.Mirrors

/-!
# What operations look at and what they write

An operation on a session looks at the session, at the version of the flow that
it is pinned to, at the settings and at the clock, and has its actions carried
out by an executor.  An engine where all of this is the same *shows* the session
the same (`Engine.Shows`), provided that the executor is steady: it gives no heed
to what it was asked before.

What a program does to an engine, apart from its locks, is a list of writes
(`Write`).  A program is *local* to a session (`EngineM.Local`) if both its result
and its writes depend only on what the engine shows to the session, and if all
that it writes is of that session.  Local programs can be put together, and all
operations on one session are made of them (`local_processInput`,
`local_terminateSession`, `local_expireSession`).
-/

namespace UssdFlows

open EngineM

/-- What the executor answers does not depend on what it was asked before. -/
def Executor.IsSteady (x : Executor) : Prop :=
  ∀ earlier earlier' r, x.answer earlier r = x.answer earlier' r

/-- The version of the flow that a session is pinned to. -/
def Session.edition (s : Session) : String × Int := (s.flowId, s.flowVersion)

/-- The session has an id and is pinned to a version of its flow. -/
structure Session.IsOf (id : String) (ed : String × Int) (s : Session) : Prop where
  sameId : s.id = id
  edition : s.edition = ed

/-! ## Writes -/

/-- One change of an engine, apart from its locks. -/
inductive Write where
  | keep (s : Session)
  | add (m : Metric) (n : Int)
  /-- A session has completed a flow. -/
  | use (flowId : String) (now : Instant)
  | tell (event : Event)
  | ask (request : ActionRequest)

/-- The write is of a session, and is made at some instant. -/
def Write.IsOf (id : String) (ed : String × Int) (now : Instant) : Write → Prop
  | keep s => s.IsOf id ed
  | use flowId time => flowId = ed.1 ∧ time = now
  | tell event => event.sessionId = id
  | add .. | ask _ => True

namespace Engine

/-- The engine after a write. -/
def write (e : Engine) : Write → Engine
  | .keep s => e.keep s
  | .add m n => e.tally m n
  | .use flowId now => { e with registry := e.registry.countUse flowId now }
  | .tell event => { e with sink := e.sink.map fun k => k.publish event }
  | .ask request => e.asked request

/-- The engine after some writes. -/
def writeAll (e : Engine) (ws : List Write) : Engine := ws.foldl write e

variable {e e' e'' : Engine} {id : String} {ed : String × Int} {w : Write} {ws vs : List Write}

theorem writeAll_append (e : Engine) (ws vs : List Write) :
    e.writeAll (ws ++ vs) = (e.writeAll ws).writeAll vs := List.foldl_append ..

/-- Writes do not concern the locks. -/
theorem Mirrors.write (h : e.Mirrors e') (w : Write) : (e.write w).Mirrors (e'.write w) := by
  rw [Mirrors] at h
  generalize e'.locks = l at h
  subst h
  cases w <;> rfl

theorem Mirrors.writeAll (h : e.Mirrors e') (ws : List Write) :
    (e.writeAll ws).Mirrors (e'.writeAll ws) := by
  induction ws generalizing e e' with
  | nil => exact h
  | cons w rest ih => exact ih (h.write w)

theorem sameService_write (e : Engine) (w : Write) : e.SameService (e.write w) := by
  cases w <;> exact ⟨rfl, rfl, rfl, rfl, rfl, rfl, rfl⟩

theorem sameService_writeAll (e : Engine) (ws : List Write) : e.SameService (e.writeAll ws) := by
  induction ws generalizing e with
  | nil => exact .refl e
  | cons w rest ih => exact (e.sameService_write w).trans (ih _)

/-! ## What an engine shows -/

/-- The other engine shows to a session, which is pinned to a version of its flow,
what this one shows. -/
structure Shows (id : String) (ed : String × Int) (e e' : Engine) : Prop where
  settings : e'.settings = e.settings
  now : e'.now = e.now
  executor : e'.executor = e.executor
  steady : ∀ x, e'.executor = some x → x.IsSteady
  replaced : e'.replaced = []
  session : e'.store.get? id = e.store.get? id
  pinned : ∀ s, e'.store.get? id = some s → s.edition = ed
  flow : e'.registry.versions.find? ed = e.registry.versions.find? ed

namespace Shows

/-- The same services show a session the same as long as both hold the same of it. -/
theorem congr {e₁ e₁' : Engine} (h : e.Shows id ed e') (hs : e.SameService e₁)
    (hs' : e'.SameService e₁') (hget : e₁'.store.get? id = e₁.store.get? id)
    (hpinned : ∀ s, e₁'.store.get? id = some s → s.edition = ed) : e₁.Shows id ed e₁' where
  settings := (hs'.settings.trans h.settings).trans hs.settings.symm
  now := (hs'.now.trans h.now).trans hs.now.symm
  executor := (hs'.executor.trans h.executor).trans hs.executor.symm
  steady := fun x hx => h.steady x (hs'.executor.symm.trans hx)
  replaced := hs'.replaced.trans h.replaced
  session := hget
  pinned := hpinned
  flow := by
    rw [hs'.versions, hs.versions]
    exact h.flow

theorem of_same (h : e.Shows id ed e') (hs : e'.SameService e'')
    (hget : e''.store.get? id = e'.store.get? id) : e.Shows id ed e'' :=
  h.congr (.refl e) hs (hget.trans h.session) fun s hs' => h.pinned s (hget.symm.trans hs')

theorem mirrors (h : e.Shows id ed e') (hm : e'.Mirrors e'') : e.Shows id ed e'' := by
  refine h.of_same hm.sameService ?_
  rw [hm.store]

/-- The session of a write is shown as it was written. -/
theorem write (h : e.Shows id ed e') (hw : w.IsOf id ed e.now) :
    (e.write w).Shows id ed (e'.write w) := by
  cases w with
  | keep s =>
      obtain ⟨hid, hed⟩ := hw
      have hkept : ∀ e₀ : Engine, (e₀.write (.keep s)).store.get? id = some s := fun e₀ =>
        (e₀.get?_keep s id).trans (if_pos hid)
      refine h.congr (e.sameService_write _) (e'.sameService_write _)
        ((hkept e').trans (hkept e).symm) fun s' hs' => ?_
      rw [hkept, Option.some.injEq] at hs'
      exact hs' ▸ hed
  | _ => exact h.congr (e.sameService_write _) (e'.sameService_write _) h.session h.pinned

theorem writeAll (h : e.Shows id ed e') (hws : ∀ w ∈ ws, w.IsOf id ed e.now) :
    (e.writeAll ws).Shows id ed (e'.writeAll ws) := by
  induction ws generalizing e e' with
  | nil => exact h
  | cons w rest ih =>
      refine ih (h.write (hws w (List.mem_cons_self ..))) fun v hv => ?_
      rw [(e.sameService_write w).now]
      exact hws v (List.mem_cons_of_mem _ hv)

/-- Writes of another session do not show. -/
theorem writeAll_other {other : String} {ed' : String × Int} {now : Instant}
    (h : e.Shows id ed e') (hne : other ≠ id) (hws : ∀ w ∈ ws, w.IsOf other ed' now) :
    e.Shows id ed (e'.writeAll ws) := by
  induction ws generalizing e' with
  | nil => exact h
  | cons w rest ih =>
      refine ih (h.of_same (e'.sameService_write w) ?_) fun v hv =>
        hws v (List.mem_cons_of_mem _ hv)
      have hw := hws w (List.mem_cons_self ..)
      cases w with
      | keep s =>
          refine (e'.get?_keep s id).trans (if_neg ?_)
          rw [hw.sameId]
          exact hne
      | _ => rfl

/-- A steady executor answers the same. -/
theorem resultFor (h : e.Shows id ed e') (r : ActionRequest) : e'.resultFor r = e.resultFor r := by
  rw [Engine.resultFor, Engine.resultFor, h.executor]
  cases hx : e.executor with
  | none => rfl
  | some x =>
      have hsteady := h.steady x (h.executor.trans hx)
      exact congrArg ActionAnswer.toResult (hsteady ..)

end Shows

end Engine

/-! ## Local programs -/

namespace EngineM

variable {α β : Type} {id : String} {ed : String × Int} {p : α → Prop} {q : β → Prop}

/-- On engines that show the same to a session a program has one result, of a
certain kind if it succeeds, and writes the same, all of it of that session. -/
structure Local (id : String) (ed : String × Int) (p : α → Prop) (x : EngineM α) : Prop where
  writes : ∀ e : Engine, e.Shows id ed e → ∃ r ws, (∀ a, r = .ok a → p a) ∧
    (∀ w ∈ ws, Write.IsOf id ed e.now w) ∧
    ∀ e', e.Shows id ed e' → (x.start e').1 = r ∧ (e'.writeAll ws).Mirrors (x.start e').2

/-- A failure gives nothing back. -/
theorem forall_of_error (err : EngineError) :
    ∀ a, (.error err : Except EngineError α) = .ok a → p a := fun _ h => by cases h

theorem Local.bind {x : EngineM α} {f : α → EngineM β} (hx : Local id ed p x)
    (hf : ∀ a, p a → Local id ed q (f a)) : Local id ed q (x >>= f) := by
  refine ⟨fun e he => ?_⟩
  obtain ⟨r, ws, hp, hws, hx⟩ := hx.writes e he
  have hstart : ∀ e', e.Shows id ed e' → x.start e' = (r, (x.start e').2) :=
    fun e' h => Prod.ext (hx e' h).1 rfl
  cases r with
  | error err =>
      refine ⟨.error err, ws, forall_of_error err, hws, fun e' h => ?_⟩
      rw [start_bind_of_error (hstart e' h)]
      exact ⟨rfl, (hx e' h).2⟩
  | ok a =>
      -- the rest of the program is looked at where the writes of its beginning are made
      obtain ⟨r', vs, hq, hvs, hf⟩ := (hf a (hp a rfl)).writes _ (he.writeAll hws)
      rw [(e.sameService_writeAll ws).now] at hvs
      refine ⟨r', ws ++ vs, hq, fun w hw => ?_, fun e' h => ?_⟩
      · exact (List.mem_append.1 hw).elim (hws w) (hvs w)
      · obtain ⟨hr, hm⟩ := hf _ ((h.writeAll hws).mirrors (hx e' h).2)
        rw [start_bind_of_ok (hstart e' h), Engine.writeAll_append]
        exact ⟨hr, ((hx e' h).2.writeAll vs).trans hm⟩

/-- A program that changes nothing but the locks. -/
theorem local_of_mirrors {x : EngineM α} {r : Except EngineError α} (hr : ∀ a, r = .ok a → p a)
    (hx : ∀ e, (x.start e).1 = r ∧ e.Mirrors (x.start e).2) : Local id ed p x :=
  ⟨fun _ _ => ⟨r, [], hr, List.forall_mem_nil _, fun e' _ => hx e'⟩⟩

/-- A program may read the engine if it looks only at what is shown to the session. -/
theorem local_get_bind {f : Engine → EngineM β}
    (hf : ∀ e : Engine, e.Shows id ed e → Local id ed q (f e))
    (hsame : ∀ e e' : Engine, e.Shows id ed e' → f e' = f e) : Local id ed q (get >>= f) := by
  refine ⟨fun e he => ?_⟩
  obtain ⟨r, ws, hr, hws, hx⟩ := (hf e he).writes e he
  refine ⟨r, ws, hr, hws, fun e' h => ?_⟩
  rw [start_bind_of_ok (start_get e'), hsame e e' h]
  exact hx e' h

theorem local_ofResult {r : Except EngineError α} (h : ∀ a, r = .ok a → p a) :
    Local id ed p (ofResult r) := local_of_mirrors h fun _ => ⟨rfl, rfl⟩

theorem local_pure {a : α} (h : p a) : Local id ed p (pure a) :=
  local_of_mirrors (r := .ok a) (fun _ ha => Except.ok.inj ha ▸ h) fun _ => ⟨rfl, rfl⟩

theorem local_throw (err : EngineError) : Local id ed p (throw err : EngineM α) :=
  local_of_mirrors (r := .error err) (forall_of_error err) fun _ => ⟨rfl, rfl⟩

theorem local_throw_bind (err : EngineError) (f : α → EngineM β) :
    Local id ed q (throw err >>= f) :=
  local_of_mirrors (r := .error err) (forall_of_error err) fun _ => ⟨rfl, rfl⟩

theorem local_ofOption {err : EngineError} {o : Option α} (h : ∀ a, o = some a → p a) :
    Local id ed p (ofOption err o) := by
  cases o with
  | none => exact local_throw err
  | some a => exact local_pure (h a rfl)

theorem local_discard (key : String) : Local id ed (fun _ => True) (discard key) :=
  local_of_mirrors (r := .ok ()) (fun _ _ => trivial) fun e => ⟨rfl, e.mirrors_locks _⟩

theorem local_attempt {x : EngineM α} (h : Local id ed p x) :
    Local id ed (fun r => ∀ a, r = .ok a → p a) (attempt x) := by
  refine ⟨fun e he => ?_⟩
  obtain ⟨r, ws, hr, hws, hx⟩ := h.writes e he
  refine ⟨.ok r, ws, fun r' hr' => Except.ok.inj hr' ▸ hr, hws, fun e' h => ?_⟩
  exact ⟨congrArg Except.ok (hx e' h).1, (hx e' h).2⟩

theorem local_hold (key : String) {body : EngineM α} (h : Local id ed p body) :
    Local id ed p (hold key body) := by
  refine ⟨fun e he => ?_⟩
  obtain ⟨r, ws, hr, hws, hx⟩ := h.writes e he
  refine ⟨r, ws, hr, hws, fun e' hshows => ?_⟩
  have hinside : e'.Mirrors ((enterLock key solo).start e').2 := e'.mirrors_locks _
  obtain ⟨hresult, hafter⟩ := hx _ (hshows.mirrors hinside)
  rw [start_hold]
  exact ⟨hresult, ((hinside.writeAll ws).trans hafter).trans (Engine.mirrors_locks _ _)⟩

theorem local_add (m : Metric) (n : Int) : Local id ed (fun _ => True) (add m n) :=
  ⟨fun _ _ => ⟨.ok (), [.add m n], fun _ _ => trivial, by simp [Write.IsOf],
    fun _ _ => ⟨rfl, rfl⟩⟩⟩

theorem local_count (m : Metric) : Local id ed (fun _ => True) (count m) := local_add m 1

theorem local_emit {s : Session} (hs : s.IsOf id ed) (type : EventType) (node : Option String)
    (data : List (String × Value)) : Local id ed (fun _ => True) (emit type s node data) := by
  refine ⟨fun e he => ?_⟩
  refine ⟨.ok (), [.tell (.ofSession type s node data e.now)], fun _ _ => trivial, ?_,
    fun e' h => ⟨rfl, ?_⟩⟩
  · simp only [List.mem_singleton, forall_eq]
    exact hs.sameId
  · rw [← h.now]
    rfl

theorem local_session : Local id ed (·.IsOf id ed) (session id) := by
  refine local_get_bind (fun e he => local_ofOption fun s hs => ?_) fun e e' h => ?_
  · exact ⟨KeyedList.key_of_find? hs, he.pinned s hs⟩
  · rw [h.session]

theorem local_served : Local id ed (·.IsOf id ed) (served id) := by
  refine local_get_bind (fun e he => local_ofOption fun s hs => ?_) fun e e' h => ?_
  · exact ⟨KeyedList.key_of_find? hs, he.pinned s hs⟩
  · rw [h.session]

theorem local_change {f : Session → Session} (hf : ∀ s : Session, s.IsOf id ed → (f s).IsOf id ed) :
    Local id ed (·.IsOf id ed) (change id f) := by
  refine ⟨fun e he => ?_⟩
  cases hget : e.store.get? id with
  | none =>
      refine ⟨.error (.store (.notStored id)), [], forall_of_error _, List.forall_mem_nil _,
        fun e' h => ?_⟩
      rw [start_change_of_missing (h.session.trans hget)]
      exact ⟨rfl, rfl⟩
  | some s =>
      have hid : s.id = id := KeyedList.key_of_find? hget
      have hs := hf s ⟨hid, he.pinned s hget⟩
      refine ⟨.ok (f s), [.keep (f s)], fun s' hs' => Except.ok.inj hs' ▸ hs, ?_, fun e' h => ?_⟩
      · simp only [List.mem_singleton, forall_eq]
        exact hs
      · rw [start_change_of_stored (h.session.trans hget) (hs.sameId.trans hid.symm)]
        exact ⟨rfl, rfl⟩

/-- A change that leaves the id and the flow of the session. -/
theorem local_change_bind {f : Session → Session} {g : Session → EngineM β}
    (hf : ∀ s : Session, (f s).id = s.id ∧ (f s).edition = s.edition)
    (hg : ∀ s : Session, s.IsOf id ed → Local id ed q (g s)) :
    Local id ed q (change id f >>= g) :=
  (local_change fun s hs =>
    ⟨(hf s).1.trans hs.sameId, (hf s).2.trans hs.edition⟩).bind hg

theorem local_flowOf {s : Session} (hs : s.IsOf id ed) :
    Local id ed (fun _ => True) (flowOf s) := by
  refine local_get_bind (fun e _ => local_ofOption fun _ _ => trivial) fun e e' h => ?_
  have hflow := h.flow
  rw [← hs.edition] at hflow
  rw [Registry.version?, Registry.version?]
  exact congrArg _ hflow

theorem local_nodeOf (f : Flow) (node : Option String) :
    Local id ed (fun _ => True) (nodeOf f node) := local_ofOption fun _ _ => trivial

end EngineM

/-! ## Stages -/

namespace Turn

variable {id : String} {ed : String × Int} {t : Turn}

/-- The turn serves a session. -/
def Serves (id : String) (t : Turn) : Prop := t.sessionId = id

theorem local_recordInput (ht : t.Serves id) : Local id ed (Serves id) t.recordInput := by
  subst ht
  refine local_get_bind (fun e _ => ?_) fun e e' h => ?_
  · refine local_change_bind (fun _ => ⟨rfl, rfl⟩) fun s hs => ?_
    have hrenewed : ∀ s', s.renew? e.now e.settings.sessionTimeout = some s' →
        s'.IsOf t.sessionId ed := by
      intro s' hs'
      obtain ⟨expiry, -, rfl⟩ := Option.map_eq_some_iff.1 hs'
      exact ⟨hs.sameId, hs.edition⟩
    refine (local_ofOption hrenewed).bind fun s' hs' => ?_
    refine (local_change fun _ _ => hs').bind fun s'' hs'' => ?_
    exact (local_emit hs'' ..).bind fun _ _ => local_pure rfl
  · simp only [h.now, h.settings]

/-- What an interpretation writes. -/
theorem exists_writes_acted (e : Engine) {s : Session} (hs : s.IsOf id ed) (n : Node) :
    ∃ ws, (∀ w ∈ ws, Write.IsOf id ed e.now w) ∧
      ∀ e', e.Shows id ed e' → e'.acted n s = e'.writeAll ws := by
  have htell : Write.IsOf id ed e.now (.tell (.ofSession .actionInitiated s (some n.id)
      [("action", .text n.kind.text)] e.now)) := hs.sameId
  cases ha : n.isAction with
  | false =>
      refine ⟨[], List.forall_mem_nil _, fun e' _ => ?_⟩
      rw [Engine.acted, ha]
      rfl
  | true =>
      cases hx : e.executor with
      | none =>
          refine ⟨[.tell (.ofSession .actionInitiated s (some n.id)
            [("action", .text n.kind.text)] e.now),
            .add (.actions n.kind (e.resultFor ⟨n, s⟩).succeeded) 1], ?_, fun e' h => ?_⟩
          · simp only [List.mem_cons, List.not_mem_nil, or_false, forall_eq_or_imp, forall_eq]
            exact ⟨htell, trivial⟩
          · rw [Engine.acted, ha, h.resultFor, Engine.requested, h.executor, hx, ← h.now]
            rfl
      | some x =>
          refine ⟨[.tell (.ofSession .actionInitiated s (some n.id)
            [("action", .text n.kind.text)] e.now), .ask ⟨n, s⟩, .add (.actionTimes n.kind) 1,
            .add (.actions n.kind (e.resultFor ⟨n, s⟩).succeeded) 1], ?_, fun e' h => ?_⟩
          · simp only [List.mem_cons, List.not_mem_nil, or_false, forall_eq_or_imp, forall_eq]
            exact ⟨htell, trivial, trivial, trivial⟩
          · rw [Engine.acted, ha, h.resultFor, Engine.requested, h.executor, hx, ← h.now]
            rfl

/-- The executor is given all earlier requests, which a steady one does not heed. -/
theorem local_dispatch (ht : t.Serves id) : Local id ed (Serves id) t.dispatch := by
  subst ht
  refine ⟨fun e he => ?_⟩
  cases hget : e.store.get? t.sessionId with
  | none =>
      refine ⟨.error (.store (.notStored t.sessionId)), [], forall_of_error _, List.forall_mem_nil _,
        fun e' h => ?_⟩
      rw [start_dispatch_of_missing (h.session.trans hget)]
      exact ⟨rfl, rfl⟩
  | some s =>
      have hs : s.IsOf t.sessionId ed := ⟨KeyedList.key_of_find? hget, he.pinned s hget⟩
      obtain ⟨ws, hws, hacted⟩ := exists_writes_acted e hs t.node
      have hstart := fun e' (h : e.Shows t.sessionId ed e') =>
        start_dispatch (h.session.trans hget) h.replaced
      cases ho : t.node.interpret s.bindings t.givenInput (e.resultFor ⟨t.node, s⟩) with
      | ok o =>
          refine ⟨.ok (t.heard o), ws, fun t' ht' => by cases ht'; rfl, hws, fun e' h => ?_⟩
          rw [hstart e' h, h.resultFor, ho, hacted e' h]
          exact ⟨rfl, rfl⟩
      | error err =>
          refine ⟨.error (.handler err), ws, forall_of_error _, hws, fun e' h => ?_⟩
          rw [hstart e' h, h.resultFor, ho, hacted e' h]
          exact ⟨rfl, rfl⟩

theorem local_navigate (f : Flow) (node : String) :
    Local id ed (fun _ => True) (navigate id f node) := by
  refine (local_nodeOf f _).bind fun n _ => local_get_bind (fun e _ => ?_) fun e e' h => ?_
  · refine local_change_bind (fun _ => ⟨rfl, rfl⟩) fun s hs => ?_
    · exact (local_count _).bind fun _ _ => (local_emit hs ..).bind fun _ _ => local_pure trivial
  · simp only [h.now]

theorem local_advance (ht : t.Serves id) : Local id ed (Serves id) t.advance := by
  subst ht
  rw [advance]
  cases t.outcome with
  | none => exact local_throw _
  | some o =>
      dsimp only
      cases o.target? with
      | none => exact local_throw _
      | some target =>
          refine (local_navigate ..).bind fun n _ => ?_
          exact local_change_bind (fun _ => ⟨rfl, rfl⟩) fun _ _ => local_pure rfl

/-- A session that is completed is counted for the flow that it is pinned to. -/
theorem local_use {s : Session} (hs : s.IsOf id ed) : Local (α := Unit) id ed (fun _ => True)
    (modify fun e => { e with registry := e.registry.countUse s.flowId e.now }) := by
  refine ⟨fun e _ => ?_⟩
  refine ⟨.ok (), [.use s.flowId e.now], fun _ _ => trivial, ?_, fun e' h => ⟨rfl, ?_⟩⟩
  · simp only [List.mem_singleton, forall_eq]
    exact ⟨congrArg Prod.fst hs.edition, rfl⟩
  · rw [← h.now]
    rfl

theorem local_finishSession : Local id ed (·.IsOf id ed) (finishSession id) := by
  refine local_served.bind fun s _ => ?_
  cases s.isActive with
  | false => exact local_throw_bind _ _
  | true =>
      refine local_get_bind (fun e _ => ?_) fun e e' h => ?_
      · refine local_change_bind (fun _ => ⟨rfl, rfl⟩) fun s' hs' => ?_
        refine (local_use hs').bind fun _ _ => (local_add _ _).bind fun _ _ => ?_
        exact (local_count _).bind fun _ _ => (local_emit hs' ..).bind fun _ _ => local_pure hs'
      · simp only [h.now]

theorem local_complete (ht : t.Serves id) : Local id ed (Serves id) t.complete := by
  subst ht
  have hfinish : ∀ f : Session → Turn, (∀ s, (f s).Serves t.sessionId) →
      Local t.sessionId ed (Serves t.sessionId) (do
        let s ← finishSession t.sessionId
        return f s : EngineM Turn) := fun f hf =>
    local_finishSession.bind fun s _ => local_pure (hf s)
  rw [complete]
  cases t.outcome with
  | none => exact hfinish _ fun _ => rfl
  | some o =>
      exact local_change_bind (fun _ => ⟨rfl, rfl⟩) fun _ _ => hfinish _ fun _ => rfl

theorem local_reprompt (ht : t.Serves id) : Local id ed (Serves id) t.reprompt := by
  subst ht
  exact local_served.bind fun s hs => (local_emit hs ..).bind fun _ _ => local_pure rfl

theorem local_respond (ht : t.Serves id) : Local id ed (Serves id) t.respond := by
  subst ht
  exact local_served.bind fun s _ => local_pure rfl

/-- **Stages.**  Every stage is local to the session that is served. -/
theorem local_perform (ht : t.Serves id) (σ : Stage) : Local id ed (Serves id) (t.perform σ) := by
  cases σ with
  | recordInput => exact local_recordInput ht
  | dispatch => exact local_dispatch ht
  | advance => exact local_advance ht
  | complete => exact local_complete ht
  | reprompt => exact local_reprompt ht
  | respond => exact local_respond ht

theorem local_run (ht : t.Serves id) (limit : Nat) (σ : Stage) :
    Local id ed (Serves id) (run limit σ t) := by
  induction limit generalizing t σ with
  | zero => exact local_throw _
  | succ limit ih =>
      refine (local_perform ht σ).bind fun t' ht' => ?_
      cases t'.next? σ with
      | none => exact local_pure ht'
      | some σ' => exact ih ht' σ'

theorem local_play (ht : t.Serves id) : Local id ed (Serves id) t.play := local_run ht _ _

end Turn

/-! ## Operations -/

variable {id : String} {ed : String × Int}

theorem local_navigationOf {t : Turn} (ht : t.Serves id) :
    Local id ed (fun _ => True) (navigationOf t) := by
  subst ht
  exact local_served.bind fun s _ => local_pure trivial

theorem local_lapse (now : Instant) : Local id ed (fun _ => True) (lapse id now) := by
  refine local_change_bind (fun _ => ⟨rfl, rfl⟩) fun s hs => ?_
  refine (local_add _ _).bind fun _ _ => (local_count _).bind fun _ _ => ?_
  refine local_get_bind (fun e _ => local_emit hs ..) fun e e' h => ?_
  simp only [h.now]

/-- An input is admitted to the session that it is sent to. -/
theorem local_admission (input : String) :
    Local id ed (fun a => ∀ t, a = .admitted t → t.Serves id) (admission id input) := by
  refine local_session.bind fun s hs => local_get_bind (fun e _ => ?_) fun e e' h => ?_
  · cases s.isActive with
    | false => exact local_pure fun t ht => by cases ht
    | true =>
        cases s.isPastExpiry e.now with
        | true => exact (local_lapse e.now).bind fun _ _ => local_pure fun t ht => by cases ht
        | false =>
            refine (local_flowOf hs).bind fun f _ => (local_nodeOf f _).bind fun n _ => ?_
            exact local_pure fun t ht => Admission.admitted.inj ht ▸ rfl
  · simp only [h.now]

theorem local_answerInput (input : String) :
    Local id ed (fun _ => True) (answerInput id input) := by
  refine (local_admission input).bind fun a ha => ?_
  cases a with
  | admitted t =>
      refine (Turn.local_play (ha t rfl)).bind fun t' ht' => ?_
      exact (local_navigationOf ht').bind fun _ _ => local_pure trivial
  | rejected status => exact local_pure trivial
  | lapsed => exact local_pure trivial

/-- The last part of the handling of an input. -/
theorem local_answered (key : String) (r : Except EngineError Answered) :
    Local id ed (fun _ => True) (do match ← ofResult r with
      | .inl result => return result
      | .inr (_, status) => throw (.notActive key status) : EngineM Navigation) := by
  refine (local_ofResult (p := fun _ => True) fun _ _ => trivial).bind fun a _ => ?_
  rcases a with result | ⟨outcome, status⟩
  · exact local_pure trivial
  · exact local_throw _

theorem local_concludeInput (key : String) (r : Except EngineError Answered) :
    Local id ed (fun _ => True) (concludeInput key r) := by
  refine (local_count _).bind fun _ _ => (local_count _).bind fun _ _ => ?_
  dsimp only
  split
  · exact (local_discard key).bind fun _ _ => local_answered key r
  · exact local_answered key r

/-- **Inputs** are local to the session that they are sent to. -/
theorem local_processInput (input : String) :
    Local id ed (fun _ => True) (processInput id input) :=
  (local_attempt (local_hold id (local_answerInput input))).bind fun r _ =>
    local_concludeInput id r

theorem local_endSession (reason : String) :
    Local id ed (fun _ => True) (endSession id reason) := by
  refine local_session.bind fun s _ => ?_
  cases s.isActive with
  | false => exact local_throw_bind _ _
  | true =>
      refine local_get_bind (fun e _ => ?_) fun e e' h => ?_
      · refine local_change_bind (fun _ => ⟨rfl, rfl⟩) fun s' hs' => ?_
        refine (local_add _ _).bind fun _ _ => (local_count _).bind fun _ _ => ?_
        exact (local_emit hs' ..).bind fun _ _ => local_pure trivial
      · simp only [h.now]

/-- **Terminations** are local to the session that is ended. -/
theorem local_terminateSession (reason : String) :
    Local id ed (fun _ => True) (terminateSession id reason) :=
  (local_hold id (local_endSession reason)).bind fun _ _ =>
    (local_discard id).bind fun _ _ => local_pure trivial

theorem local_lapseIfDue (now : Instant) :
    Local id ed (fun _ => True) (lapseIfDue id now) := by
  refine local_get_bind (fun e _ => ?_) fun e e' h => ?_
  · cases e.store.get? id with
    | none => exact local_pure trivial
    | some s =>
        dsimp only
        split
        · exact (local_lapse now).bind fun _ _ => local_pure trivial
        · exact local_pure trivial
  · rw [h.session]

/-- **Expiries** are local to the session that has been idle. -/
theorem local_expireSession (now : Instant) :
    Local id ed (fun _ => True) (expireSession id now) := by
  refine (local_hold id (local_lapseIfDue now)).bind fun isDone _ => ?_
  cases isDone with
  | true => exact (local_discard id).bind fun _ _ => local_pure trivial
  | false => exact local_pure trivial

end UssdFlows
