import UssdFlows.Proofs.Engine.Pieces
import UssdFlows.Proofs.Engine.Smooth

/-!
# Operations on sound engines

Every operation of the engine ends *safely* in a sound state
(`EngineM.Safe`): whatever it comes to, the engine is sound again, nothing that
was stored is lost, and no session was found without its flow or its node.
Only an input may have the executor asked for something.

Publishing needs that only sound graphs are found valid, and a new session
needs its flow in the ledger (`safe_createSession`); the other operations are
safe under any ledger.
-/

namespace UssdFlows

open EngineM

variable {α β : Type} {L : Ledger} {others : String → Prop} {asks : Prop} {e e' : Engine}
  {id : String} {s s' : Session}

/-! ## Safe programs -/

/-- A result is no fault. -/
def Blameless (r : Except EngineError α) : Prop := ∀ err, r = .error err → ¬ err.IsFault

theorem blameless_ok (a : α) : Blameless (.ok a) := by
  intro err herr
  cases herr

theorem blameless_error {err : EngineError} (h : ¬ err.IsFault) :
    Blameless (.error err : Except EngineError α) := by
  intro err' herr
  cases herr
  exact h

/-- A program leaves a sound engine, whether it succeeds or fails, and does not
fail by a fault; unless it `asks`, it leaves the executor alone. -/
structure EngineM.Safe (L : Ledger) (others : String → Prop) (asks : Prop) (x : EngineM α)
    (e : Engine) : Prop where
  grows : e.Grows (x.start e).2
  sound : (x.start e).2.Sound L others
  unasked : ¬ asks → (x.start e).2.requests = e.requests
  blameless : Blameless (x.start e).1

namespace EngineM

theorem safe_of_ok {x : EngineM α} {a : α} (hx : x.start e = (.ok a, e')) (hg : e.Grows e')
    (hs : e'.Sound L others) (hr : ¬ asks → e'.requests = e.requests) :
    Safe L others asks x e := by
  refine ⟨?_, ?_, ?_, ?_⟩ <;> rw [hx]
  · exact hg
  · exact hs
  · exact hr
  · exact blameless_ok a

theorem safe_pure (a : α) (h : e.Sound L others) : Safe L others asks (pure a) e :=
  safe_of_ok rfl (.refl e) h fun _ => rfl

theorem safe_of_error {x : EngineM α} {err : EngineError} (hx : x.start e = (.error err, e'))
    (hg : e.Grows e') (hs : e'.Sound L others) (hr : ¬ asks → e'.requests = e.requests)
    (hf : ¬ err.IsFault) : Safe L others asks x e := by
  refine ⟨?_, ?_, ?_, ?_⟩ <;> rw [hx]
  · exact hg
  · exact hs
  · exact hr
  · exact blameless_error hf

/-- A program may fail at once. -/
theorem safe_of_stop {x : EngineM α} {err : EngineError} (hx : x.start e = (.error err, e))
    (hs : e.Sound L others) (hf : ¬ err.IsFault) : Safe L others asks x e :=
  safe_of_error hx (.refl e) hs (fun _ => rfl) hf

/-- A program may go on after a step that succeeds. -/
theorem safe_bind_of_ok {x : EngineM α} {f : α → EngineM β} {a : α}
    (hx : x.start e = (.ok a, e')) (hg : e.Grows e') (hr : ¬ asks → e'.requests = e.requests)
    (hf : Safe L others asks (f a) e') : Safe L others asks (x >>= f) e := by
  refine ⟨?_, ?_, ?_, ?_⟩ <;> rw [start_bind_of_ok hx]
  · exact hg.trans hf.grows
  · exact hf.sound
  · exact fun hno => (hf.unasked hno).trans (hr hno)
  · exact hf.blameless

theorem Safe.bind {x : EngineM α} {f : α → EngineM β} (hx : Safe L others asks x e)
    (hf : ∀ a e', x.start e = (.ok a, e') → e'.Sound L others → Safe L others asks (f a) e') :
    Safe L others asks (x >>= f) e := by
  obtain ⟨hg, hs, hu, hb⟩ := hx
  cases hr : x.start e with
  | mk r e' =>
      rw [hr] at hg hs hu hb
      cases r with
      | error err => exact safe_of_error (start_bind_of_error hr) hg hs hu (hb err rfl)
      | ok a => exact safe_bind_of_ok hr hg hu (hf a e' hr hs)

end EngineM

theorem Engine.Alike.sound (h : e.Alike e') (hs : e.Sound L others) : e'.Sound L others :=
  hs.of_same h.service h.store

/-- A section is as safe as what is done inside. -/
theorem EngineM.safe_hold {key : String} {body : EngineM α}
    (h : ∀ e₁, e.Alike e₁ → Safe L others asks body e₁) : Safe L others asks (hold key body) e := by
  obtain ⟨e₁, e₂, ⟨h₁, -⟩, ⟨h₂, -⟩, hstart⟩ := start_hold_calm key body e
  obtain ⟨hg, hs, hu, hb⟩ := h e₁ h₁
  refine ⟨?_, ?_, ?_, ?_⟩ <;> rw [hstart]
  · exact (h₁.service.grows.trans hg).trans h₂.service.grows
  · exact h₂.sound hs
  · exact fun hno => h₂.requests.trans ((hu hno).trans h₁.requests)
  · exact hb

/-- A step that concerns locks and counts only is safe. -/
theorem EngineM.safe_of_alike {x : EngineM α} {a : α} (h : e.Sound L others)
    (hx : x.start e = (.ok a, e')) (halike : e.Alike e') : Safe L others asks x e :=
  safe_of_ok hx halike.service.grows (halike.sound h) fun _ => halike.requests

theorem EngineM.safe_discard (key : String) (h : e.Sound L others) :
    Safe L others asks (discard key) e := by
  obtain ⟨e', hstart, halike⟩ := start_discard key e
  exact safe_of_alike h hstart halike

/-! ## Sessions that are over -/

namespace Engine.Sound

/-- A session that is over may be kept in the place of a stored one. -/
theorem keep_over (h : e.Sound L others) (hget : e.store.get? id = some s) (s' : Session)
    (hid : s'.id = s.id) (hflow : s'.flowId = s.flowId) (hversion : s'.flowVersion = s.flowVersion)
    (hnode : s'.currentNode = s.currentNode) (hover : s'.isActive = false) :
    (e.keep s').Sound L others := by
  refine h.keep ((h.placed id s hget).congr hid hflow hversion hnode fun ha => ?_) fun _ _ hm => hm
  rw [hover] at ha
  cases ha

theorem lapsed (h : e.Sound L others) (hget : e.store.get? id = some s) (now : Instant) :
    (e.lapsed s now).Sound L others :=
  (h.keep_over hget (s.expiredAt now) rfl rfl rfl rfl rfl).of_same
    ((e.sameService_keep _).symm.trans (e.sameService_lapsed s now)) rfl

theorem terminated (h : e.Sound L others) (hget : e.store.get? id = some s) (reason : String) :
    (e.terminated s reason).Sound L others :=
  (h.keep_over hget (s.terminatedAt reason e.now) rfl rfl rfl rfl rfl).of_same
    ((e.sameService_keep _).symm.trans (e.sameService_terminated s reason)) rfl

/-- Sessions may be dropped. -/
theorem dropStale (h : e.Sound L others) (retention : Int) (now : Instant) :
    ({ e with store := e.store.dropStale retention now } : Engine).Sound L others := by
  refine h.of_placed ⟨rfl, rfl, rfl, rfl, rfl, rfl, rfl⟩ fun id s hget => ?_
  obtain ⟨hmem, hid⟩ := KeyedList.find?_eq_some_iff.1 hget
  exact h.placed id s (KeyedList.find?_eq_some_iff.2 ⟨(List.mem_filter.1 hmem).1, hid⟩)

end Engine.Sound

theorem safe_endSession (h : e.Sound L others) (id reason : String) :
    Safe L others asks (endSession id reason) e := by
  rcases start_endSession id reason e with ⟨err, hstart, herr⟩ | ⟨s, hget, hstart⟩
  · refine safe_of_stop hstart h ?_
    rcases herr with rfl | ⟨status, rfl⟩
    · exact fun hf => hf
    · exact fun hf => hf
  · exact safe_of_ok hstart (e.sameService_terminated s reason).grows (h.terminated hget reason)
      fun _ => rfl

theorem safe_lapseIfDue (h : e.Sound L others) (id : String) (now : Instant) :
    Safe L others asks (lapseIfDue id now) e := by
  rcases start_lapseIfDue id now e with hstart | ⟨s, hget, hstart⟩
  · exact safe_of_alike h hstart (.refl e)
  · exact safe_of_ok hstart (e.sameService_lapsed s now).grows (h.lapsed hget now) fun _ => rfl

/-! ## Publishing -/

theorem safe_publishFlow (h : e.Sound L others) (f : Flow) :
    Safe L others asks (publishFlow f) e := by
  obtain ⟨report, e₁, hexamine, halike, limits, rfl⟩ := start_examine f e
  have h₁ := halike.sound h
  refine safe_bind_of_ok hexamine halike.service.grows (fun _ => halike.requests) ?_
  cases hv : (f.report limits).isValid with
  | false => exact safe_of_stop rfl h₁ fun hf => hf
  | true =>
      have hf : f.WellFormed := Flow.isValid_iff_wellFormed.1 hv
      have hgrows : e₁.Grows { e₁ with registry := (e₁.registry.publish f).2 } :=
        ⟨fun g hg => h₁.registry.rising.mem_publish.2 (Or.inr hg), Nat.le_refl _, rfl⟩
      refine safe_of_ok rfl hgrows ⟨h₁.replaced, h₁.registry.publish hf, ?_, h₁.fresh⟩ fun _ => rfl
      exact fun id s hget => (h₁.placed id s hget).mono hgrows (.refl _ L) fun hm => hm

/-! ## Turns -/

/-- A turn that fits is played safely; if it is smooth, without the executor. -/
theorem safe_play {t : Turn} (h : e.Sound L (t.Moving others t.entry))
    (hf : t.Fits L e.nextSession t.entry) (hsmooth : ¬ asks → t.IsSmooth t.entry) :
    Safe L others asks t.play e := by
  have hsettles := t.settles_play h hf
  have hrequests : ¬ asks → (t.play.start e).2.requests = e.requests := fun hno =>
    (Turn.run_smooth h hf hf.cost_le_stageLimit (hsmooth hno)).1
  cases hr : t.play.start e with
  | mk r e' =>
      rw [hr] at hsettles hrequests
      cases r with
      | ok t' => exact safe_of_ok hr hsettles.1.grows hsettles.2.1 hrequests
      | error err => exact safe_of_error hr hsettles.1.grows hsettles.2.1 hrequests hsettles.2.2

theorem safe_navigationOf (h : e.Sound L others) (t : Turn) :
    Safe L others asks (navigationOf t) e := by
  cases hget : e.store.get? t.sessionId with
  | none => exact safe_of_stop (start_navigationOf_of_missing hget) h fun hf => hf
  | some s => exact safe_of_alike h (start_navigationOf hget) (.refl e)

theorem safe_served (h : e.Sound L others) (id : String) : Safe L others asks (served id) e := by
  cases hget : e.store.get? id with
  | none => exact safe_of_stop (start_served_of_missing hget) h fun hf => hf
  | some s => exact safe_of_alike h (start_served_of_stored hget) (.refl e)

/-- An active session rests at a node from which a turn can start. -/
theorem fits_admitted (h : e.Sound L others) (hget : e.store.get? id = some s)
    (ha : s.isActive = true) (input : String) :
    ∃ n, s.currentNode.bind (L.pin id).node? = some n ∧
      (Turn.start id (L.pin id) n (some input)).Fits L e.nextSession .recordInput := by
  obtain ⟨rfl, hissued, hwf, -⟩ := h.stored hget
  obtain ⟨n, hnode, hn, hactive⟩ := (h.placed _ s hget).resting
  refine ⟨n, by rw [hnode]; exact hn, ?_⟩
  exact ⟨hissued, rfl, hwf, hn, (hactive ha).1, nofun, nofun⟩

/-- An input has the executor asked only if its session is live. -/
theorem safe_answerInput (h : e.Sound L others) (id input : String)
    (hlive : ¬ asks → ∀ s, e.store.get? id = some s → s.isLive e.now = false) :
    Safe L others asks (answerInput id input) e := by
  cases hget : e.store.get? id with
  | none =>
      exact safe_of_stop (start_bind_of_error (start_admission_of_missing hget input)) h fun hf => hf
  | some s =>
      cases ha : s.isActive with
      | false =>
          exact safe_bind_of_ok (start_admission_of_not_isActive hget ha input) (.refl e)
            (fun _ => rfl) (safe_pure _ h)
      | true =>
          cases hx : s.isPastExpiry e.now with
          | true =>
              have hgrows := (e.sameService_lapsed s e.now).grows
              exact safe_bind_of_ok (start_admission_of_isPastExpiry hget ha hx input) hgrows
                (fun _ => rfl) (safe_pure _ (h.lapsed hget e.now))
          | false =>
              obtain ⟨n, hn, hfits⟩ := fits_admitted h hget ha input
              have hpinned := (h.stored hget).2.2.2
              refine safe_bind_of_ok (start_admission_of_live hget ha hx hpinned hn input)
                (.refl e) (fun _ => rfl) ?_
              have hno : ¬ asks → False := by
                intro hno
                have hdead := hlive hno s hget
                rw [Session.isLive, ha, hx] at hdead
                cases hdead
              refine (safe_play (h.mono fun id hm => Or.inl hm) hfits fun h => (hno h).elim).bind ?_
              intro t' e' _ hs
              exact (safe_navigationOf hs t').bind fun r e'' _ hs' => safe_pure _ hs'

theorem safe_concludeInput (h : e.Sound L others) {r : Except EngineError Answered}
    (hr : Blameless r) (id : String) : Safe L others asks (concludeInput id r) e := by
  obtain ⟨e', hstart, halike, -⟩ := start_concludeInput id r e
  have hs := halike.sound h
  have hgrows := halike.service.grows
  rcases r with err | result | ⟨outcome, status⟩
  · exact safe_of_error hstart hgrows hs (fun _ => halike.requests) (hr err rfl)
  · exact safe_of_alike h hstart halike
  · exact safe_of_error hstart hgrows hs (fun _ => halike.requests) fun hf => hf

theorem safe_processInput (h : e.Sound L others) (id input : String)
    (hlive : ¬ asks → ∀ s, e.store.get? id = some s → s.isLive e.now = false) :
    Safe L others asks (processInput id input) e := by
  obtain ⟨hg, hs, hu, hb⟩ : Safe L others asks (hold id (answerInput id input)) e := by
    refine safe_hold fun e₁ h₁ => safe_answerInput (h₁.sound h) id input fun hno s hget => ?_
    rw [h₁.service.now]
    exact hlive hno s (h₁.store ▸ hget)
  exact safe_bind_of_ok (start_attempt ..) hg hu (safe_concludeInput hs hb id)

/-- An input is safe in any case if it may have the executor asked. -/
theorem safe_anyInput (h : e.Sound L others) (id input : String) :
    Safe L others True (processInput id input) e :=
  safe_processInput h id input fun hno => absurd trivial hno

/-! ## Starting sessions -/

theorem Engine.grows_numbered (e : Engine) : e.Grows e.numbered :=
  ⟨fun _ hg => hg, Nat.le_succ _, rfl⟩

/-- A new session and the turn that is to settle it go together. -/
structure Opens (L : Ledger) (e : Engine) (s : Session) (t : Turn) : Prop where
  same : t.sessionId = s.id
  placed : s.Placed L (t.Moving (fun _ => False) t.entry) e
  fits : t.Fits L e.nextSession t.entry

theorem Opens.mono {L' : Ledger} {t : Turn} (h : Opens L e s t) (hg : e.Grows e')
    (hL : L.Agrees e.nextSession L') : Opens L' e' s t :=
  ⟨h.same, h.placed.mono hg hL fun hm => hm, h.fits.mono hg.next hL⟩

/-- The session that is opened in a published flow, under the next id. -/
theorem opens_newlyOpened (h : e.Sound L others) {f : Flow} {n : Node}
    (hf : f ∈ e.registry.versions.items) (hn : f.node? f.startNode = some n) (c : Caller)
    (expiry : Instant) :
    Opens (L.pinned (sessionId e.nextSession) f) e.numbered
      (.newlyOpened (sessionId e.nextSession) f c e.now expiry)
      (.start (sessionId e.nextSession) f n none) := by
  have hnid : n.id = f.startNode := KeyedList.key_of_find? hn
  have hissued : IsIssued e.numbered.nextSession (sessionId e.nextSession) :=
    isIssued_succ e.nextSession
  have hpin : f = (L.pinned (sessionId e.nextSession) f).pin (sessionId e.nextSession) :=
    (L.pin_pinned _ f).symm
  have hnone : L.behind (sessionId e.nextSession) = ∅ := h.fresh _ (not_isIssued_self _)
  have hbeyond : ∀ node, (L.pinned (sessionId e.nextSession) f).Beyond (sessionId e.nextSession)
      node := by
    intro node p hp
    have hp' : p ∈ L.behind (sessionId e.nextSession) := hp
    rw [hnone] at hp'
    exact absurd hp' fun hf => hf
  have hnode : f.node? n.id = some n := by rw [hnid]; exact hn
  refine ⟨rfl, ⟨hissued, ?_, n, ?_, ?_, fun _ => ⟨hbeyond n.id, fun ht => Or.inr ⟨rfl, ht, ?_⟩⟩⟩, ?_⟩
  · exact (Registry.version?_of_mem hf).trans (congrArg some hpin)
  · exact congrArg some hnid.symm
  · show ((L.pinned (sessionId e.nextSession) f).pin (sessionId e.nextSession)).node? n.id = some n
    rw [← hpin]
    exact hnode
  · exact Or.inl (if_pos ht)
  · refine ⟨hissued, hpin, h.registry.validated f hf, hnode, hbeyond n.id, fun heq => ?_, fun heq => ?_⟩
    · rw [Turn.entry, if_neg (by exact Bool.false_ne_true)] at heq
      split at heq <;> cases heq
    · rw [Turn.entry, if_neg (by exact Bool.false_ne_true)] at heq
      split at heq <;> cases heq

/-- Using up a session id leaves the engine sound. -/
theorem sound_numbered (h : e.Sound L others) : e.numbered.Sound L others := by
  have hgrows := e.grows_numbered
  refine ⟨h.replaced, h.registry, fun id s hget => ?_, fun id hid => ?_⟩
  · exact (h.placed id s hget).mono hgrows (.refl _ _) fun hm => hm
  · exact h.fresh id fun hi => hid (hi.mono hgrows.next)

/-- Once a session is stored it may be on the move. -/
theorem sound_opened {t : Turn} (h : e.Sound L others) (ho : Opens L e s t) :
    (e.opened s).Sound L (t.Moving others t.entry) := by
  have hplaced : s.Placed L (t.Moving others t.entry) e :=
    ho.placed.mono (.refl e) (.refl _ L) fun hm => Or.inr (hm.resolve_left fun hf => hf)
  exact (h.keep hplaced fun id _ hm => Or.inl hm).of_same
    ((e.sameService_keep s).symm.trans (e.sameService_opened s)) rfl

theorem safe_settleSession {t : Turn} (h : e.Sound L others) (ho : Opens L e s t)
    (ht : t.input = none) : Safe L others asks (settleSession s t) e := by
  refine safe_hold fun e₁ h₁ => ?_
  have hs := h₁.sound h
  have ho₁ : Opens L e₁ s t := ho.mono h₁.service.grows (.refl _ L)
  rcases start_storeSession s e₁ with hstart | hstart
  · have hgrows := (e₁.sameService_opened s).grows
    refine safe_bind_of_ok hstart hgrows (fun _ => rfl) ?_
    refine (safe_play (sound_opened hs ho₁) (ho₁.fits.mono hgrows.next (.refl _ L))
      fun _ => Turn.isSmooth_entry ht).bind ?_
    exact fun t' e' _ hs' => safe_served hs' t'.sessionId
  · exact safe_of_stop (start_bind_of_error hstart) hs fun hf => hf

/-- A sound graph has a start node. -/
theorem Flow.WellFormed.start {f : Flow} (h : f.WellFormed) :
    ∃ n, f.node? f.startNode = some n := by
  have hstart := h.start_exists
  rw [Flow.hasNode, KeyedList.contains, Option.isSome_iff_exists] at hstart
  exact hstart

theorem safe_findOrOpen (h : e.Sound L others) {f : Flow} (hf : f ∈ e.registry.versions.items)
    (c : Caller) :
    Safe (L.pinned (sessionId e.nextSession) f) others asks (findOrOpen f c) e := by
  have hpinned := h.pinned f
  obtain ⟨n, hn⟩ := (h.registry.validated f hf).start
  rcases start_openSession hn c e with ⟨s, -, hstart⟩ | hstart | ⟨expiry, hstart⟩
  · exact safe_bind_of_ok hstart (.refl e) (fun _ => rfl) (safe_pure _ hpinned)
  · exact safe_of_stop (start_bind_of_error hstart) hpinned fun hf => hf
  · refine safe_bind_of_ok hstart e.grows_numbered (fun _ => rfl) ?_
    exact (safe_settleSession (sound_numbered hpinned) (opens_newlyOpened h hf hn c expiry) rfl).bind
      fun s' e' _ hs => safe_pure _ hs

/-- **Starting is safe.**  A session of a flow that is not being served is not
started, and nothing changes; otherwise starting is safe, once the flow of the
next session is put down. -/
theorem safe_createSession (h : e.Sound L others) (c : Caller) :
    (e.registry.get? c.flowId = none ∧
        (createSession c).start e = (.error (.flowNotFound c.flowId none), e)) ∨
      ∃ f, e.registry.get? c.flowId = some f ∧
        Safe (L.pinned (sessionId e.nextSession) f) others asks (createSession c) e := by
  cases hget : e.registry.get? c.flowId with
  | none =>
      exact Or.inl ⟨rfl, start_bind_of_error (start_currentFlow_of_none hget)⟩
  | some f =>
      have hf := (Registry.mem_of_get? hget).1
      refine Or.inr ⟨f, rfl, safe_bind_of_ok (start_currentFlow_of_some hget) (.refl e)
        (fun _ => rfl) ?_⟩
      refine Safe.bind (safe_hold fun e₁ h₁ => ?_) fun opening e' _ hs => ?_
      · rw [← h₁.service.nextSession]
        exact safe_findOrOpen (h₁.sound h) (h₁.service.versions ▸ hf) c
      · cases opening.2 with
        | false => exact safe_pure _ hs
        | true => exact (safe_discard c.key hs).bind fun _ e'' _ hs' => safe_pure _ hs'

/-! ## Ending sessions -/

theorem safe_terminateSession (h : e.Sound L others) (id reason : String) :
    Safe L others asks (terminateSession id reason) e := by
  refine (safe_hold fun e₁ h₁ => safe_endSession (h₁.sound h) id reason).bind fun s e' _ hs => ?_
  exact (safe_discard id hs).bind fun _ e'' _ hs' => safe_pure _ hs'

theorem safe_expireSession (h : e.Sound L others) (id : String) (now : Instant) :
    Safe L others asks (expireSession id now) e := by
  refine (safe_hold fun e₁ h₁ => safe_lapseIfDue (h₁.sound h) id now).bind fun isDone e' _ hs => ?_
  cases isDone with
  | false => exact safe_pure _ hs
  | true => exact (safe_discard id hs).bind fun _ e'' _ hs' => safe_pure _ hs'

theorem safe_expireEach (h : e.Sound L others) (now : Instant) (ids : List String) :
    Safe L others asks (expireEach now ids) e := by
  induction ids generalizing e with
  | nil => exact safe_pure _ h
  | cons id rest ih =>
      refine (safe_expireSession h id now).bind fun isDone e' _ hs => ?_
      exact (ih hs).bind fun count e'' _ hs' => safe_pure _ hs'

theorem safe_sweep (h : e.Sound L others) (retention : Int) (now : Instant) :
    Safe L others asks (sweep retention now) e := by
  refine safe_bind_of_ok (start_get e) (.refl e) (fun _ => rfl) ?_
  refine (safe_expireEach h now _).bind fun count e' _ hs => ?_
  exact safe_of_ok rfl ⟨fun g hg => hg, Nat.le_refl _, rfl⟩ (hs.dropStale retention now) fun _ => rfl

end UssdFlows
