import UssdFlows.Proofs.Engine.Operations
import UssdFlows.Proofs.Service.Runs

/-!
# Operations that run side by side, in sound engines

An operation in progress *fits* (`Phase.Fits`) if what it knows is still so: a
flow it has looked up is stored, a session it is about to store may be stored,
and the turn it plays fits the stage that comes next.  What other operations do
meanwhile cannot change that, since flows stay stored and the ledger keeps what
it says of a session (`Phase.Fits.mono`).

Going on with an operation that fits leaves a sound engine and an operation
that fits (`goesOn_step`).  It may end in a fault only when it begins, if a
session of a flow is to be started that is not being served.
-/

namespace UssdFlows

open EngineM

variable {α β : Type} {L L' : Ledger} {others : String → Prop} {e e' : Engine}

/-! ## Safe pieces -/

namespace EngineM

theorem safe_ofResult {r : Except EngineError α} (hr : Blameless r)
    (h : e.Sound L others) : Safe L others True (ofResult r) e :=
  ⟨.refl e, h, fun _ => rfl, hr⟩

theorem safe_leaveLock (key : String) (number : Nat) (v : Visitor) (h : e.Sound L others) :
    Safe L others True (leaveLock key number v) e := by
  obtain ⟨e', hstart, halike⟩ := start_leaveLock key number v e
  exact safe_of_alike h hstart halike

/-- What comes of an attempt is no fault. -/
theorem Safe.attempt_bind {x : EngineM α} {f : Except EngineError α → EngineM β}
    (hx : Safe L others True x e)
    (hf : ∀ r e', e'.Sound L others → Blameless r → Safe L others True (f r) e') : Safe L others True (attempt x >>= f) e :=
  safe_bind_of_ok (start_attempt x e) hx.grows hx.unasked (hf _ _ hx.sound hx.blameless)

end EngineM

/-! ## Phases that fit -/

namespace Phase

/-- What an operation in progress knows is so. -/
def Fits (L : Ledger) (e : Engine) : Phase → Prop
  | opening _ f _ => f ∈ e.registry.versions.items
  | settling _ _ s t _ => Opens L e s t
  | entering call _ _ => ∀ c, call ≠ .create c
  | playing _ _ left stage t => t.Fits L e.nextSession stage ∧ t.cost stage ≤ left
  | acting _ _ left _ t => t.Fits L e.nextSession .dispatch ∧ t.cost .dispatch ≤ left + 1
  | ready _ | finished _ => True

/-- The session that an operation in progress carries on. -/
def Carries : Phase → String → Prop
  | playing _ _ _ stage t, id => id = t.sessionId ∧ t.Carries stage
  | acting _ _ _ _ t, id => id = t.sessionId ∧ t.Carries .dispatch
  | _, _ => False

/-- The sessions on the move while an operation is in progress. -/
def Moving (others : String → Prop) (p : Phase) (id : String) : Prop := others id ∨ p.Carries id

theorem Fits.mono {p : Phase} (h : p.Fits L e) (hg : e.Grows e') (hL : L.Agrees e.nextSession L') :
    p.Fits L' e' := by
  cases p with
  | ready call => exact h
  | opening c f lock => exact hg.versions f h
  | settling c callerLock s t lock => exact Opens.mono h hg hL
  | entering call id lock => exact h
  | playing purpose lock left stage t => exact ⟨h.1.mono hg.next hL, h.2⟩
  | acting purpose lock left pending t => exact ⟨h.1.mono hg.next hL, h.2⟩
  | finished r => exact h

/-- A program takes an operation to a phase that fits, in a sound engine, and
does not end it by a fault. -/
def GoesOn (L : Ledger) (others : String → Prop) (x : EngineM Phase) (e : Engine) : Prop :=
  ∃ p e', x.start e = (.ok p, e') ∧ e.Grows e' ∧ e'.Sound L (p.Moving others) ∧ p.Fits L e' ∧
    ∀ err, p = .finished (.error err) → ¬ err.IsFault

/-- An operation that is not over has not failed. -/
theorem not_fault_of_not_isFinished {p : Phase} (h : p.isFinished = false) :
    ∀ err, p = .finished (.error err) → ¬ err.IsFault := by
  rintro err rfl
  cases h

theorem goesOn_of_start {x y : EngineM Phase} (h : x.start e = y.start e') (hg : e.Grows e')
    (hy : GoesOn L others y e') : GoesOn L others x e := by
  obtain ⟨p, e'', hstart, hgrows, hrest⟩ := hy
  exact ⟨p, e'', h.trans hstart, hg.trans hgrows, hrest⟩

/-- A phase in which nothing is carried on. -/
theorem goesOn_pure {p : Phase} (h : e.Sound L others) (hf : p.Fits L e)
    (hp : ∀ err, p = .finished (.error err) → ¬ err.IsFault) : GoesOn L others (pure p) e :=
  ⟨p, e, rfl, .refl e, h.mono fun _ hm => Or.inl hm, hf, hp⟩

theorem goesOn_endWith {x : EngineM Reply} (hx : EngineM.Safe L others True x e) :
    GoesOn L others (endWith x) e := by
  refine ⟨.finished (x.start e).1, (x.start e).2, rfl, hx.grows,
    hx.sound.mono fun _ hm => Or.inl hm, trivial, fun err herr => ?_⟩
  rw [Phase.finished.injEq] at herr
  exact hx.blameless err herr

/-! ## The end of a turn -/

theorem safe_servedBy_ofResult (h : e.Sound L others) {r : Except EngineError Turn}
    (hr : Blameless r) :
    EngineM.Safe L others True (do servedBy (← ofResult r)) e :=
  (safe_ofResult hr h).bind fun t _ _ hs => safe_served hs t.sessionId

theorem safe_navigationOf_ofResult (h : e.Sound L others) {r : Except EngineError Turn}
    (hr : Blameless r) :
    EngineM.Safe L others True (do navigationOf (← ofResult r)) e :=
  (safe_ofResult hr h).bind fun t _ _ hs => safe_navigationOf hs t

theorem safe_conclude (h : e.Sound L others) {r : Except EngineError Turn}
    (hr : Blameless r) (v : Visitor) (id : String) (lock : Nat)
    (purpose : Purpose) : EngineM.Safe L others True (conclude v id lock r purpose) e := by
  cases purpose with
  | settle c callerLock =>
      refine (safe_servedBy_ofResult h hr).attempt_bind fun r' e₁ h₁ hr' => ?_
      refine (safe_leaveLock id lock v h₁).bind fun _ e₂ _ h₂ => ?_
      refine (safe_leaveLock c.key callerLock v h₂).bind fun _ e₃ _ h₃ => ?_
      refine (safe_ofResult hr' h₃).bind fun s e₄ _ h₄ => ?_
      exact (safe_discard c.key h₄).bind fun _ e₅ _ h₅ => safe_pure _ h₅
  | answer =>
      refine (safe_navigationOf_ofResult h hr).attempt_bind fun r' e₁ h₁ hr' => ?_
      refine (safe_leaveLock id lock v h₁).bind fun _ e₂ _ h₂ => ?_
      have hr'' : Blameless (r'.map (Sum.inl : Navigation → Answered)) := by
        cases r' with
        | error err => exact blameless_error (hr' err rfl)
        | ok shown => exact blameless_ok _
      refine (safe_concludeInput h₂ hr'' id).bind fun shown e₃ _ h₃ => ?_
      exact (safe_served h₃ id).bind fun s e₄ _ h₄ => safe_pure _ h₄

/-- After a stage the turn goes on to the next one or is over. -/
theorem goesOn_afterStage {t : Turn} {σ : Stage} {r : Except EngineError Turn} {left : Nat}
    (h : t.Leaves L others σ r e) (hcost : t.cost σ ≤ left + 1) (v : Visitor) (purpose : Purpose)
    (lock : Nat) : GoesOn L others (afterStage v purpose lock left σ t.sessionId r) e := by
  cases r with
  | error err =>
      obtain ⟨hs, hf⟩ := h
      exact goesOn_endWith (safe_conclude hs (blameless_error hf) v t.sessionId lock purpose)
  | ok t' =>
      obtain ⟨-, hready⟩ := h
      rw [afterStage]
      cases hn : t'.next? σ with
      | none =>
          rw [hn] at hready
          exact goesOn_endWith (safe_conclude hready (blameless_ok t') v t.sessionId lock purpose)
      | some σ' =>
          rw [hn] at hready
          obtain ⟨hs, hfits, hless⟩ := hready
          exact ⟨_, e, rfl, .refl e, hs, ⟨hfits, by omega⟩, not_fault_of_not_isFinished rfl⟩

/-! ## Going on -/

theorem goesOn_playStage {t : Turn} {σ : Stage} {left : Nat}
    (h : e.Sound L (t.Moving others σ)) (hf : t.Fits L e.nextSession σ) (hcost : t.cost σ ≤ left)
    (v : Visitor) (purpose : Purpose) (lock : Nat) :
    GoesOn L others (playStage v purpose lock left σ t) e := by
  cases left with
  | zero => exact absurd (t.cost_pos σ) (by omega)
  | succ left =>
      rw [playStage]
      by_cases hσ : σ = .dispatch
      · subst hσ
        rw [if_pos rfl]
        rcases Turn.start_ask_cases h.replaced t with ⟨hget, hask⟩ | ⟨pending, e₁, hask, hsame, hstore, -⟩
        · refine goesOn_of_start ?_ (.refl e)
            (goesOn_afterStage (Turn.leaves_missing h hget) hcost v purpose lock)
          rw [start_bind_of_ok (start_attempt ..), hask]
        · have h₁ := h.of_same hsame hstore
          have hf₁ := hf.mono hsame.grows.next (.refl _ L)
          cases pending with
          | none =>
              obtain ⟨hsame₂, hleaves⟩ := Turn.leaves_hear h₁ hf₁ none
              refine goesOn_of_start ?_ (hsame.trans hsame₂).grows
                (goesOn_afterStage hleaves hcost v purpose lock)
              rw [start_bind_of_ok (start_attempt ..), hask]
              exact start_bind_of_ok (start_attempt ..)
          | some p =>
              refine ⟨.acting purpose lock left p t, e₁, ?_, hsame.grows, h₁, ⟨hf₁, hcost⟩,
                not_fault_of_not_isFinished rfl⟩
              rw [start_bind_of_ok (start_attempt ..), hask]
              rfl
      · rw [if_neg hσ]
        obtain ⟨hsame, hleaves⟩ := Turn.leaves_perform h hf
        exact goesOn_of_start (start_bind_of_ok (start_attempt ..)) hsame.grows
          (goesOn_afterStage hleaves hcost v purpose lock)

theorem goesOn_openInside {f : Flow} (h : e.Sound L others) (hf : f ∈ e.registry.versions.items)
    (v : Visitor) (c : Caller) (callerLock : Nat) :
    GoesOn (L.pinned (sessionId e.nextSession) f) others (openInside v c f callerLock) e := by
  have hpinned := h.pinned f
  obtain ⟨n, hn⟩ := (h.registry.validated f hf).start
  rcases start_openSession hn c e with ⟨s, -, hstart⟩ | hstart | ⟨expiry, hstart⟩
  · have hend : EngineM.Safe (L.pinned (sessionId e.nextSession) f) others True
        (do leaveLock c.key callerLock v; return Reply.session s) e :=
      (safe_leaveLock c.key callerLock v hpinned).bind fun _ e₁ _ h₁ => safe_pure _ h₁
    refine goesOn_of_start ?_ (.refl e) (goesOn_endWith hend)
    rw [openInside, start_bind_of_ok (start_attempt ..), hstart]
  · have hend : EngineM.Safe (L.pinned (sessionId e.nextSession) f) others True
        (do leaveLock c.key callerLock v; throw .timeOutOfRange : EngineM Reply) e :=
      (safe_leaveLock c.key callerLock v hpinned).bind fun _ e₁ _ h₁ =>
        safe_of_stop rfl h₁ fun hf => hf
    refine goesOn_of_start ?_ (.refl e) (goesOn_endWith hend)
    rw [openInside, start_bind_of_ok (start_attempt ..), hstart]
  · have hgrows := e.grows_numbered
    have hopens := opens_newlyOpened h hf hn c expiry
    obtain ⟨number, e₁, hlock, halike⟩ := start_enterLock
      (Session.newlyOpened (sessionId e.nextSession) f c e.now expiry).id v e.numbered
    have hnumbered := sound_numbered hpinned
    refine ⟨.settling c callerLock _ _ number, e₁, ?_, hgrows.trans halike.service.grows,
      (halike.sound hnumbered).mono fun _ hm => Or.inl hm,
      hopens.mono halike.service.grows (.refl _ _), not_fault_of_not_isFinished rfl⟩
    rw [openInside, start_bind_of_ok (start_attempt ..), hstart]
    exact start_bind_of_ok hlock

theorem goesOn_settleInside {s : Session} {t : Turn} (h : e.Sound L others)
    (ho : Opens L e s t) (v : Visitor) (c : Caller) (callerLock lock : Nat) :
    GoesOn L others (settleInside v c callerLock s t lock) e := by
  rcases start_storeSession s e with hstart | hstart
  · have hgrows := (e.sameService_opened s).grows
    have hfits := ho.fits.mono hgrows.next (.refl _ L)
    refine ⟨beginTurn (.settle c callerLock) lock t, e.opened s, ?_, hgrows, sound_opened h ho,
      ⟨hfits, hfits.cost_le_stageLimit⟩, not_fault_of_not_isFinished rfl⟩
    rw [settleInside, start_bind_of_ok (start_attempt ..), hstart]
    rfl
  · have hblame : Blameless (.error (.store (.alreadyStored s.id)) : Except EngineError Turn) :=
      blameless_error fun hf => hf
    refine goesOn_of_start ?_ (.refl e)
      (goesOn_endWith (safe_conclude h hblame v s.id lock (.settle c callerLock)))
    rw [settleInside, start_bind_of_ok (start_attempt ..), hstart]

/-- An input that is not admitted leaves the section at once. -/
theorem goesOn_refuse (h : e.Sound L others) {r : Except EngineError Answered}
    (hr : Blameless r) (v : Visitor) (id : String) (lock : Nat) :
    GoesOn L others (goInside.refuse v id lock r) e := by
  refine goesOn_endWith ((safe_leaveLock id lock v h).bind fun _ e₁ _ h₁ => ?_)
  refine (safe_concludeInput h₁ hr id).bind fun shown e₂ _ h₂ => ?_
  exact (safe_served h₂ id).bind fun s e₃ _ h₃ => safe_pure _ h₃

theorem goesOn_admission (h : e.Sound L others) (v : Visitor) (id text : String) (lock : Nat)
    (session : String) : GoesOn L others (goInside v id lock (.input session text)) e := by
  rw [goInside]
  cases hget : e.store.get? id with
  | none =>
      have hblame : Blameless (.error (.sessionNotFound id) : Except EngineError Answered) :=
        blameless_error fun hf => hf
      refine goesOn_of_start ?_ (.refl e) (goesOn_refuse h hblame v id lock)
      rw [start_bind_of_ok (start_attempt ..), start_admission_of_missing hget]
  | some s =>
      cases ha : s.isActive with
      | false =>
          refine goesOn_of_start ?_ (.refl e)
            (goesOn_refuse h (blameless_ok (.inr (.rejected, s.status))) v id lock)
          rw [start_bind_of_ok (start_attempt ..), start_admission_of_not_isActive hget ha]
      | true =>
          cases hx : s.isPastExpiry e.now with
          | true =>
              refine goesOn_of_start ?_ (e.sameService_lapsed s e.now).grows
                (goesOn_refuse (h.lapsed hget e.now) (blameless_ok (.inr (.expired, .expired)))
                  v id lock)
              rw [start_bind_of_ok (start_attempt ..), start_admission_of_isPastExpiry hget ha hx]
          | false =>
              obtain ⟨n, hn, hfits⟩ := fits_admitted h hget ha text
              have hpinned := (h.stored hget).2.2.2
              have hcost := hfits.cost_le_stageLimit
              refine ⟨.playing .answer lock (Turn.stageLimit (L.pin id)) .recordInput
                (.start id (L.pin id) n (some text)), e, ?_, .refl e, h.mono fun _ hm => Or.inl hm,
                ⟨hfits, hcost⟩, not_fault_of_not_isFinished rfl⟩
              rw [start_bind_of_ok (start_attempt ..),
                start_admission_of_live hget ha hx hpinned hn]
              rfl

theorem goesOn_goInside (h : e.Sound L others) (v : Visitor) (id : String) (lock : Nat)
    {call : Call} (hcall : ∀ c, call ≠ .create c) :
    GoesOn L others (goInside v id lock call) e := by
  cases call with
  | create c => exact absurd rfl (hcall c)
  | input session text => exact goesOn_admission h v id text lock session
  | terminate session reason =>
      refine goesOn_endWith ((safe_endSession h id reason).attempt_bind fun r e₁ h₁ hr => ?_)
      refine (safe_leaveLock id lock v h₁).bind fun _ e₂ _ h₂ => ?_
      refine (safe_ofResult hr h₂).bind fun s e₃ _ h₃ => ?_
      exact (safe_discard id h₃).bind fun _ e₄ _ h₄ => safe_pure _ h₄
  | expire session now =>
      refine goesOn_endWith ((safe_lapseIfDue h id now).attempt_bind fun r e₁ h₁ hr => ?_)
      refine (safe_leaveLock id lock v h₁).bind fun _ e₂ _ h₂ => ?_
      refine (safe_ofResult hr h₂).bind fun isDone e₃ _ h₃ => ?_
      cases isDone with
      | false => exact safe_pure _ h₃
      | true => exact (safe_discard id h₃).bind fun _ e₄ _ h₄ => safe_pure _ h₄

theorem goesOn_enter (h : e.Sound L others) (v : Visitor) (id : String) {call : Call}
    (hcall : ∀ c, call ≠ .create c) :
    GoesOn L others (do return .entering call id (← enterLock id v)) e := by
  obtain ⟨number, e₁, hlock, halike⟩ := start_enterLock id v e
  refine goesOn_of_start (start_bind_of_ok hlock) halike.service.grows
    (goesOn_pure (halike.sound h) hcall (not_fault_of_not_isFinished rfl))

/-- Beginning fails at once for a caller of a flow that is not being served. -/
theorem goesOn_beginCall (h : e.Sound L others) (v : Visitor) (call : Call) :
    (∃ c, call = .create c ∧ e.registry.get? c.flowId = none ∧ (beginCall v call).start e =
        (.ok (.finished (.error (.flowNotFound c.flowId none))), e)) ∨
      GoesOn L others (beginCall v call) e := by
  cases call with
  | create c =>
      cases hget : e.registry.get? c.flowId with
      | none =>
          refine Or.inl ⟨c, rfl, hget, ?_⟩
          rw [beginCall, start_bind_of_ok (start_attempt ..), start_currentFlow_of_none hget]
          rfl
      | some f =>
          obtain ⟨number, e₁, hlock, halike⟩ := start_enterLock c.key v e
          have hfits : (Phase.opening c f number).Fits L e₁ := by
            show f ∈ e₁.registry.versions.items
            rw [halike.service.versions]
            exact (Registry.mem_of_get? hget).1
          refine Or.inr (goesOn_of_start ?_ halike.service.grows
            (goesOn_pure (halike.sound h) hfits (not_fault_of_not_isFinished rfl)))
          rw [beginCall, start_bind_of_ok (start_attempt ..), start_currentFlow_of_some hget]
          exact start_bind_of_ok hlock
  | input id text => exact Or.inr (goesOn_enter h v id nofun)
  | terminate id reason => exact Or.inr (goesOn_enter h v id nofun)
  | expire id now => exact Or.inr (goesOn_enter h v id nofun)

/-- **Steps.**  Going on with an operation that fits leaves a sound engine and an
operation that fits, perhaps with the flow of one more session put down.  Only
a caller of a flow that is not being served is sent away by a fault. -/
theorem goesOn_step {p : Phase} (h : e.Sound L (p.Moving others)) (hf : p.Fits L e)
    (hp : p.isFinished = false) (v : Visitor) :
    (∃ c, p = .ready (.create c) ∧ e.registry.get? c.flowId = none ∧ (p.step v).start e =
        (.ok (.finished (.error (.flowNotFound c.flowId none))), e)) ∨
      ∃ L', L.Agrees e.nextSession L' ∧ GoesOn L' others (p.step v) e := by
  have hothers : (∀ id, ¬ p.Carries id) → e.Sound L others := fun hno =>
    h.mono fun id hm => hm.elim (fun ho => ho) fun hc => absurd hc (hno id)
  cases p with
  | ready call =>
      rcases goesOn_beginCall (hothers fun _ hc => hc) v call with ⟨c, rfl, hrest⟩ | hgoes
      · exact Or.inl ⟨c, rfl, hrest⟩
      · exact Or.inr ⟨L, .refl _ L, hgoes⟩
  | opening c f lock =>
      exact Or.inr ⟨_, L.agrees_pinned _ f, goesOn_openInside (hothers fun _ hc => hc) hf v c lock⟩
  | settling c callerLock s t lock =>
      exact Or.inr ⟨L, .refl _ L,
        goesOn_settleInside (hothers fun _ hc => hc) hf v c callerLock lock⟩
  | entering call id lock =>
      exact Or.inr ⟨L, .refl _ L, goesOn_goInside (hothers fun _ hc => hc) v id lock hf⟩
  | playing purpose lock left stage t =>
      exact Or.inr ⟨L, .refl _ L, goesOn_playStage h hf.1 hf.2 v purpose lock⟩
  | acting purpose lock left pending t =>
      obtain ⟨hsame, hleaves⟩ := Turn.leaves_hear h hf.1 (some pending)
      exact Or.inr ⟨L, .refl _ L, goesOn_of_start (start_bind_of_ok (start_attempt ..)) hsame.grows
        (goesOn_afterStage hleaves hf.2 v purpose lock)⟩
  | finished r => exact absurd hp.symm Bool.false_ne_true

end Phase

end UssdFlows
