import UssdFlows.Proofs.Engine.Sweeps
import UssdFlows.Proofs.Service.Callers
import UssdFlows.Proofs.Service.Exits
import UssdFlows.Proofs.Service.Settlements

/-!
# Operations agree on when a session is alive

Four operations decide by themselves whether an active session is still alive: the
start of a session looks for one to go on with, an input is admitted to one, and a
session is taken out of service, by itself or by a sweep, if it is not.  They agree
(`Service.Reachable.lifetimes_agree`): each takes the session for alive up to and
including the instant at which it expires.

What each operation makes of a session that is past its expiry is said by a lemma of
its own.  An input has it expire and is rejected (`start_processInput_of_lapsed`), a
sweep has it expire with the others (`Engine.get?_swept`), and the start of a session
passes it by: it touches no stored session at all (`get?_createSession`), and what it
gives the caller is another one.  The other way round the start of a session gives the
caller the session that is alive because he has no other one.  That is so as long as
the clock does not go back, and stands still while operations go on side by side
(`Service.Timely.oneLive`); otherwise he may get another one
(`Service.lifetimes_disagree`).
-/

namespace UssdFlows

open EngineM

variable {α β : Type} {L : Ledger} {others : String → Prop} {e e' : Engine} {id : String}
  {s : Session} {f : Flow} {c : Caller} {now : Instant}

/-! ## Inputs -/

/-- An input to a session that is alive is not rejected because of its status. -/
theorem not_notActive_processInput (h : e.Sound L others) (hget : e.store.get? id = some s)
    (hlive : s.isLive e.now = true) (input : String) (j : String) (status : SessionStatus) :
    ((processInput id input).start e).1 ≠ .error (.notActive j status) := by
  obtain ⟨n, ha⟩ := h.awaits hget hlive
  cases htime : e.now.afterSeconds? e.settings.sessionTimeout with
  | none =>
      obtain ⟨e', hstart, -⟩ := ha.start_processInput_of_late htime input
      rw [hstart]
      nofun
  | some expiry =>
      rcases processInput_cases h ha htime input with
        ⟨-, err, e', hstart, -⟩ | ⟨-, result, e', hstart, -⟩
      · rw [hstart]
        nofun
      · rw [hstart]
        nofun

/-! ## Starting a session touches no other -/

theorem Engine.get?_bind {x : EngineM α} {g : α → EngineM β} {j : String}
    (hx : (x.start e).2.store.get? j = e.store.get? j)
    (hg : ∀ a e', x.start e = (.ok a, e') → ((g a).start e').2.store.get? j = e'.store.get? j) :
    ((x >>= g).start e).2.store.get? j = e.store.get? j :=
  state_bind (P := fun e' => e'.store.get? j = e.store.get? j) hx fun a e' hstart h =>
    (hg a e' hstart).trans h

theorem Engine.get?_hold {x : EngineM α} {j : String} (key : String)
    (hx : ∀ e₁, e.Alike e₁ → (x.start e₁).2.store.get? j = e₁.store.get? j) :
    ((hold key x).start e).2.store.get? j = e.store.get? j := by
  obtain ⟨e₁, e₂, h₁, h₂, hstart⟩ := start_hold_calm key x e
  rw [hstart]
  dsimp only
  rw [h₂.alike.store, hx e₁ h₁.alike, h₁.alike.store]

/-- The rest of a turn touches its own session alone. -/
theorem Turn.get?_run {j : String} (limit : Nat) (σ : Stage) (t : Turn) (hj : j ≠ t.sessionId) :
    ((run limit σ t).start e).2.store.get? j = e.store.get? j := by
  induction limit generalizing σ t e with
  | zero => rfl
  | succ limit ih =>
      refine Engine.get?_bind (((t.confined_perform σ).touches e).others j hj) fun t' e' hstart => ?_
      have hsame : t'.sessionId = t.sessionId :=
        (t.yields_perform σ e t' (by rw [hstart])).sessionId
      cases t'.next? σ with
      | none => rfl
      | some σ' => exact ih σ' t' (hsame ▸ hj)

theorem get?_settleSession {t : Turn} {j : String} (hs : j ≠ s.id) (ht : j ≠ t.sessionId) :
    ((settleSession s t).start e).2.store.get? j = e.store.get? j := by
  refine Engine.get?_hold s.id fun e₁ _ => Engine.get?_bind ?_ fun _ e₂ _ => ?_
  · rcases start_storeSession s e₁ with hstart | hstart
    · rw [hstart]
      exact (e₁.get?_opened s j).trans (if_neg (Ne.symm hs))
    · rw [hstart]
  · refine Engine.get?_bind (Turn.get?_run _ _ t ht) fun t' e₃ _ => ?_
    have hserved : Confined Effect.IsFinish t.sessionId (servedBy t') := confined_served _
    exact (hserved.touches e₃).others j ht

/-- Starting a session leaves all stored sessions as they are. -/
theorem get?_createSession {j : String} (hj : j ≠ sessionId e.nextSession) :
    ((createSession c).start e).2.store.get? j = e.store.get? j := by
  cases hf : e.registry.get? c.flowId with
  | none => rw [createSession, start_bind_of_error (start_currentFlow_of_none hf)]
  | some f =>
      rw [createSession, start_bind_of_ok (start_currentFlow_of_some hf)]
      refine Engine.get?_bind (Engine.get?_hold c.key fun e₁ h₁ => ?_) fun opening e₁ _ => ?_
      · refine Engine.get?_bind ?_ fun opening e₂ hopen => ?_
        · cases hopen : (openSession f c).start e₁ with
          | mk r e₂ => rcases openSession_cases hopen with rfl | rfl <;> rfl
        · cases opening with
          | resumed r => rfl
          | opened r t =>
              obtain ⟨-, -, expiry, n, rfl, -, rfl⟩ := openSession_opened hopen
              have hfresh : j ≠ sessionId e₁.nextSession := h₁.service.nextSession ▸ hj
              exact Engine.get?_bind (get?_settleSession hfresh hfresh) fun _ _ _ => rfl
      · dsimp only
        split <;> rfl

/-- What is found for a caller is stored and live. -/
theorem SessionStore.live_of_findLive? {t : SessionStore}
    (h : t.findLive? c.flowId c.phoneNumber c.ussdCode now = some s) :
    t.get? s.id = some s ∧ s.isLive now = true := by
  rw [SessionStore.findLive?_eq] at h
  have hs := List.find?_some h
  rw [Bool.and_eq_true] at hs
  exact ⟨KeyedList.find?_of_mem (List.mem_of_find?_eq_some h), hs.1⟩

/-- No session is made whose time of expiry cannot be written. -/
theorem start_createSession_of_late (hf : e.registry.get? c.flowId = some f)
    (hnone : e.store.findLive? c.flowId c.phoneNumber c.ussdCode e.now = none)
    (htime : e.now.afterSeconds? e.settings.sessionTimeout = none) :
    ∃ e', (createSession c).start e = (.error .timeOutOfRange, e') ∧ e.Alike e' := by
  obtain ⟨e₁, e₂, h₁, h₂, hhold⟩ := start_hold_calm c.key (findOrOpen f c) e
  have hopen : (openSession f c).start e₁ = (.error .timeOutOfRange, e₁) := by
    have hmade : (newSession f c).start e₁ = (.error .timeOutOfRange, e₁) := by
      rw [start_newSession, h₁.alike.service.renewal, htime]
    rw [openSession, start_bind_of_ok (start_get e₁), h₁.alike.store, h₁.alike.service.now, hnone]
    exact start_bind_of_error hmade
  rw [findOrOpen, start_bind_of_error hopen] at hhold h₂
  refine ⟨e₂, ?_, h₁.alike.trans h₂.alike⟩
  rw [createSession, start_bind_of_ok (start_currentFlow_of_some hf)]
  exact start_bind_of_error hhold

/-- A caller whose session is past its expiry gets another one, or none if the time of
expiry of that cannot be written. -/
theorem createSession_of_lapsed (h : e.Sound L others) (hget : e.store.get? id = some s)
    (hf : e.registry.get? s.flowId = some f) (hx : s.isPastExpiry e.now = true) :
    (∃ r e', (createSession s.caller).start e = (.ok r, e') ∧ r.id ≠ id) ∨
      (e.now.afterSeconds? e.settings.sessionTimeout = none ∧
        ∃ e', (createSession s.caller).start e = (.error .timeOutOfRange, e')) := by
  cases hfound : e.store.findLive? s.flowId s.phoneNumber s.ussdCode e.now with
  | some r =>
      obtain ⟨locks, hstart⟩ := start_createSession_of_found (c := s.caller) hf hfound
      obtain ⟨hstored, hlive⟩ := SessionStore.live_of_findLive? (c := s.caller) hfound
      refine Or.inl ⟨r, _, hstart, fun hid => ?_⟩
      rw [hid, hget, Option.some.injEq] at hstored
      rw [← hstored, Session.isLive, hx, Bool.not_true, Bool.and_false] at hlive
      cases hlive
  | none =>
      cases htime : e.now.afterSeconds? e.settings.sessionTimeout with
      | none =>
          obtain ⟨e', hstart, -⟩ := start_createSession_of_late (c := s.caller) hf hfound htime
          exact Or.inr ⟨rfl, e', hstart⟩
      | some expiry =>
          have hwf : f.WellFormed := h.registry.validated f (Registry.mem_of_get? hf).1
          obtain ⟨n, hn⟩ := hwf.start
          obtain ⟨path, ending, hsettles⟩ :=
            hwf.exists_settles (Flow.node?_id_of_node? hn) f.defaults
          obtain ⟨e', hstart, hmissing, -⟩ :=
            h.start_createSession (c := s.caller) hf hn hfound htime hsettles
          refine Or.inl ⟨_, e', hstart, fun hid => ?_⟩
          rw [hid, hget] at hmissing
          cases hmissing

/-! ## The operations agree -/

namespace Service

theorem Timely.reachable {pace : Pace} {w : Service} (h : w.Timely pace) : w.Reachable := by
  induction h with
  | fresh settings sink executor now => exact .fresh ..
  | change _ _ ih => exact ih
  | perform _ _ _ ih => exact ih.step (.perform ..)
  | turnClock _ _ ih => exact ih.step (.perform ..)
  | begin call _ _ ih => exact ih.step (.begin ..)
  | proceed i _ ih => exact ih.step (.proceed ..)

end Service

/-- What operations do with an active session that is past its expiry. -/
structure Engine.GivesUp (e : Engine) (id : String) (s : Session) (input : String)
    (retention : Int) : Prop where
  passed : ((createSession s.caller).start e).2.store.get? id = some s
  another : (∃ r e', (createSession s.caller).start e = (.ok r, e') ∧ r.id ≠ id) ∨
    (e.now.afterSeconds? e.settings.sessionTimeout = none ∧
      ∃ e', (createSession s.caller).start e = (.error .timeOutOfRange, e'))
  rejected : ∃ e', (processInput id input).start e = (.error (.notActive id .expired), e') ∧
    e'.store.get? id = some (s.expiredAt e.now)
  expired : ∃ e', (expireSession id e.now).start e = (.ok true, e') ∧
    e'.store.get? id = some (s.expiredAt e.now)
  swept : ∃ count e', (sweep retention e.now).start e = (.ok count, e') ∧
    e'.store.get? id = if 0 ≤ retention then some (s.expiredAt e.now) else none

theorem Engine.Sound.givesUp (h : e.Sound L others) (hget : e.store.get? id = some s)
    (ha : s.isActive = true) (hf : e.registry.get? s.flowId = some f)
    (hx : s.isPastExpiry e.now = true) (input : String) (retention : Int) :
    e.GivesUp id s input retention where
  passed := (get?_createSession (h.stored hget).2.1.ne).trans hget
  another := createSession_of_lapsed h hget hf hx
  rejected := by
    obtain ⟨e₁, e', h₁, h', hstart⟩ := start_processInput_of_lapsed hget ha hx input
    have hget₁ : e₁.store.get? id = some s := h₁.alike.store ▸ hget
    exact ⟨e', hstart, h'.alike.store ▸ get?_lapsed_self hget₁ e.now⟩
  expired := by
    obtain ⟨locks, hstart⟩ :=
      start_expireSession_of_due hget (Session.isDue_of_isPastExpiry ha hx)
    exact ⟨_, hstart, get?_lapsed_self hget e.now⟩
  swept := by
    obtain ⟨locks, hstart⟩ := start_sweep retention e.now e
    exact ⟨_, _, hstart,
      get?_swept_of_due hget (Session.isDue_of_isPastExpiry ha hx) retention⟩

namespace Engine.GivesUp

variable {input : String} {retention : Int}

theorem not_taken (h : e.GivesUp id s input retention) :
    ¬ ∀ j status, ((processInput id input).start e).1 ≠ .error (.notActive j status) := by
  intro htaken
  obtain ⟨_, hstart, -⟩ := h.rejected
  exact htaken _ _ (by rw [hstart])

theorem not_spared (h : e.GivesUp id s input retention) :
    ((expireSession id e.now).start e).1 ≠ .ok false := by
  intro hspared
  obtain ⟨_, hstart, -⟩ := h.expired
  rw [hstart] at hspared
  cases hspared

theorem not_kept (h : e.GivesUp id s input retention) :
    ¬ ∃ s', ((sweep retention e.now).start e).2.store.get? id = some s' ∧ s'.isActive = true := by
  rintro ⟨s', hget, ha⟩
  obtain ⟨_, _, hstart, hstored⟩ := h.swept
  rw [hstart, hstored] at hget
  split at hget
  · cases hget
    cases ha
  · cases hget

theorem not_resumed (h : e.GivesUp id s input retention) (hid : s.id = id) :
    ((createSession s.caller).start e).1 ≠ .ok s := by
  intro hsame
  rcases h.another with ⟨r, _, hstart, hr⟩ | ⟨-, _, hstart⟩
  · rw [hstart, Except.ok.injEq] at hsame
    exact hr (hsame ▸ hid)
  · rw [hstart] at hsame
    cases hsame

end Engine.GivesUp

/-- What operations do with an active session that is alive. -/
structure Engine.GoesOn (e : Engine) (id : String) (s : Session) (input : String)
    (retention : Int) : Prop where
  taken : ∀ j status, ((processInput id input).start e).1 ≠ .error (.notActive j status)
  spared : ((expireSession id e.now).start e).1 = .ok false
  kept : ((sweep retention e.now).start e).2.store.get? id = some s

theorem Engine.Sound.goesOn (h : e.Sound L others) (hget : e.store.get? id = some s)
    (ha : s.isActive = true) (hx : s.isPastExpiry e.now = false) (input : String)
    (retention : Int) : e.GoesOn id s input retention where
  taken := not_notActive_processInput h hget (Session.isLive_of_inTime ha hx) input
  spared := by
    have hdue : ∀ s', e.store.get? id = some s' → s'.isDue e.now = false := fun s' hget' => by
      cases hget.symm.trans hget'
      exact Session.isDue_of_inTime hx
    obtain ⟨_, hstart⟩ := start_expireSession_of_not_due hdue
    rw [hstart]
  kept := by
    obtain ⟨_, hstart⟩ := start_sweep retention e.now e
    rw [hstart]
    exact get?_swept_of_live hget ha (Session.isDue_of_inTime hx) retention

namespace Service

/-- **Lifetimes.**  In every state of a service an active session of a flow that is
served is alive up to and including the instant at which it expires, and the operations
agree on that: no input to it is rejected because of its status, it is not taken out of
service, and a sweep leaves it active.  The caller gets it when he starts a session, and
he gets it for certain in the states that are reached in time.

When it is past its expiry starting a session leaves it as it is, and gives the caller
another one if the time of expiry of that can be written.  An input has it expire and is
rejected, and so does a sweep, which keeps it as long as sessions are retained. -/
theorem Reachable.lifetimes_agree {w : Service} (hw : w.Reachable)
    (hget : w.engine.store.get? id = some s) (ha : s.isActive = true)
    (hf : w.engine.registry.get? s.flowId = some f) (input : String) (retention : Int) :
    let e := w.engine
    ((∀ j status, ((processInput id input).start e).1 ≠ .error (.notActive j status)) ↔
        s.isPastExpiry e.now = false) ∧
      (((expireSession id e.now).start e).1 = .ok false ↔ s.isPastExpiry e.now = false) ∧
      ((∃ s', ((sweep retention e.now).start e).2.store.get? id = some s' ∧ s'.isActive = true) ↔
        s.isPastExpiry e.now = false) ∧
      (((createSession s.caller).start e).1 = .ok s → s.isPastExpiry e.now = false) ∧
      (∀ pace, w.Timely pace → s.isPastExpiry e.now = false →
        ((createSession s.caller).start e).1 = .ok s) ∧
      (s.isPastExpiry e.now = true → e.GivesUp id s input retention) := by
  intro e
  obtain ⟨L, h⟩ := hw.sound
  have hgives := fun hx => h.engine.givesUp hget ha hf hx input retention
  have hgoes := fun hx => h.engine.goesOn hget ha hx input retention
  have halive : ∀ {p : Prop}, (s.isPastExpiry e.now = true → ¬ p) → p →
      s.isPastExpiry e.now = false := fun hnot hp => by
    rw [Bool.eq_false_iff]
    exact fun hx => hnot hx hp
  refine ⟨⟨halive fun hx => (hgives hx).not_taken, fun hx => (hgoes hx).taken⟩,
    ⟨halive fun hx => (hgives hx).not_spared, fun hx => (hgoes hx).spared⟩,
    ⟨halive fun hx => (hgives hx).not_kept, fun hx => ⟨s, (hgoes hx).kept, ha⟩⟩,
    halive fun hx => (hgives hx).not_resumed (KeyedList.key_of_find? hget),
    fun pace htimely hx => ?_, hgives⟩
  obtain ⟨locks, hstart⟩ := htimely.oneLive.single.start_createSession hf hget
    (Session.isLive_of_inTime ha hx)
  rw [hstart]

end Service

/-- An hour after the start of the year one is in range. -/
theorem Instant.hour_inRange : 3600000000 < 3652059 * 86400000000 := by decide

/-- So is the middle of the last second. -/
theorem Instant.last_inRange : 315537897599500000 < 3652059 * 86400000000 := by decide

/-- A caller of the greeting. -/
def Caller.ada : Caller := ⟨"greeting", "555", "*1#"⟩

namespace Service

/-- A caller has started a session, and an hour later starts one again. -/
def redialled : Service :=
  ((((fresh .standard none none ⟨0, Instant.zero_inRange⟩).perform (.publish .greeting)).perform
    (.create .ada)).perform (.turnClock ⟨3600000000, Instant.hour_inRange⟩)).perform (.create .ada)

theorem timely_redialled : redialled.Timely .oneByOne := by
  have hquiet : ∀ {w : Service}, w.tasks = [] → w.IsQuiet := fun h t ht => by
    rw [h] at ht
    cases ht
  have hpublished := (Timely.fresh .standard none none ⟨0, Instant.zero_inRange⟩).perform
    (hquiet rfl) (show (Operation.publish .greeting).GoesOnward _ from trivial)
  have hcreated := hpublished.perform (hquiet rfl)
    (show (Operation.create .ada).GoesOnward _ from trivial)
  have hlater : (Instant.mk 3600000000 Instant.hour_inRange).before
      (((fresh .standard none none ⟨0, Instant.zero_inRange⟩).perform (.publish .greeting)).perform
        (.create .ada)).engine.now = false := by decide +kernel
  exact (hcreated.turnClock hlater).perform (hquiet rfl)
    (show (Operation.create .ada).GoesOnward _ from trivial)

/-- The first session is past its expiry then, and the second one is the one that he gets. -/
theorem lifetimes_agree_redialled :
    ∃ s₁ s₂, redialled.engine.store.get? (sessionId 1) = some s₁ ∧
      redialled.engine.store.get? (sessionId 2) = some s₂ ∧
      redialled.engine.GivesUp (sessionId 1) s₁ "Ada" 3600 ∧
      ((createSession s₂.caller).start redialled.engine).1 = .ok s₂ ∧
      ((expireSession (sessionId 2) redialled.engine.now).start redialled.engine).1 =
        .ok false := by
  have hfirst : (redialled.engine.store.get? (sessionId 1)).any (fun s => s.isActive &&
      decide (s.flowId = "greeting") && s.isPastExpiry redialled.engine.now) = true := by
    decide +kernel
  have hsecond : (redialled.engine.store.get? (sessionId 2)).any (fun s => s.isActive &&
      decide (s.flowId = "greeting") && !s.isPastExpiry redialled.engine.now) = true := by
    decide +kernel
  have hserved : (redialled.engine.registry.get? "greeting").isSome = true := by decide +kernel
  obtain ⟨s₁, hget₁, hs₁⟩ := (Option.any_eq_true _ _).1 hfirst
  obtain ⟨s₂, hget₂, hs₂⟩ := (Option.any_eq_true _ _).1 hsecond
  simp only [Bool.and_eq_true, Bool.not_eq_true', decide_eq_true_eq] at hs₁ hs₂
  obtain ⟨f, hf⟩ := Option.isSome_iff_exists.1 hserved
  have htimely := timely_redialled
  obtain ⟨-, -, -, -, -, hover⟩ := Reachable.lifetimes_agree htimely.reachable hget₁ hs₁.1.1
    (hs₁.1.2 ▸ hf) "Ada" 3600
  obtain ⟨-, hspared, -, -, hresumed, -⟩ := Reachable.lifetimes_agree htimely.reachable hget₂
    hs₂.1.1 (hs₂.1.2 ▸ hf) "Ada" 3600
  exact ⟨s₁, s₂, hget₁, hget₂, hover hs₁.2, hresumed _ htimely hs₂.2, hspared.2 hs₂.2⟩

end Service

/-- The caller of an active session that is alive does not get it when he starts one. -/
def Engine.PassesBy (e : Engine) (id : String) : Prop :=
  ∃ s f, e.store.get? id = some s ∧ s.isActive = true ∧ e.registry.get? s.flowId = some f ∧
    s.isPastExpiry e.now = false ∧ ((createSession s.caller).start e).1 ≠ .ok s

/-- That can be evaluated for a caller who is known. -/
theorem Engine.passesBy_of_any
    (hserved : (e.registry.get? c.flowId).isSome = true)
    (hlive : (e.store.get? id).any (fun s => s.isActive && decide (s.caller = c) &&
      !s.isPastExpiry e.now) = true)
    (hother : ((createSession c).start e).1.toOption.any (fun r => decide (r.id ≠ id)) = true) :
    e.PassesBy id := by
  obtain ⟨f, hf⟩ := Option.isSome_iff_exists.1 hserved
  obtain ⟨s, hget, hs⟩ := (Option.any_eq_true _ _).1 hlive
  obtain ⟨r, hr, hid⟩ := any_toOption_iff.1 hother
  simp only [Bool.and_eq_true, Bool.not_eq_true', decide_eq_true_eq] at hs hid
  obtain ⟨⟨ha, rfl⟩, hx⟩ := hs
  refine ⟨s, f, hget, ha, hf, hx, fun hsame => hid ?_⟩
  rw [hr, Except.ok.injEq] at hsame
  rw [hsame]
  exact KeyedList.key_of_find? hget

namespace Service

/-- Then the clock goes back to the start. -/
def rewound : Service := redialled.perform (.turnClock ⟨0, Instant.zero_inRange⟩)

/-- An input was admitted to the session of a caller, but it is not recorded before he
has started one again an hour later. -/
def overtaken : Service :=
  ((((((((fresh .standard none none ⟨0, Instant.zero_inRange⟩).perform
    (.publish .greeting)).perform (.create .ada)).begin (.input (sessionId 1) "Ada")).proceed
      0).proceed 0).perform (.turnClock ⟨3600000000, Instant.hour_inRange⟩)).perform
        (.create .ada)).proceed 0

/-- A session that lives until the last second has expired. -/
def outlasted : Service :=
  (((fresh .endless none none ⟨0, Instant.zero_inRange⟩).perform (.publish .greeting)).perform
    (.create .ada)).perform (.turnClock ⟨315537897599500000, Instant.last_inRange⟩)

theorem reachable_greetings (settings : Settings) :
    (((fresh settings none none ⟨0, Instant.zero_inRange⟩).perform (.publish .greeting)).perform
      (.create .ada)).Reachable :=
  ((Reachable.fresh ..).step (.perform _ (.publish .greeting))).step (.perform _ (.create .ada))

/-- When the clock has gone back both sessions are alive, and the caller gets the first
one for the second.  So he does when the first one is renewed after the clock has gone on
and the second one was started.  When a session has expired at the end of time the caller
gets none, since it could not expire. -/
theorem lifetimes_disagree :
    (rewound.Reachable ∧ rewound.engine.PassesBy (sessionId 2)) ∧
    (overtaken.Reachable ∧ overtaken.engine.PassesBy (sessionId 2)) ∧
    outlasted.Reachable ∧ ∃ s f, outlasted.engine.store.get? (sessionId 1) = some s ∧
      s.isActive = true ∧ outlasted.engine.registry.get? s.flowId = some f ∧
      s.isPastExpiry outlasted.engine.now = true ∧
      ((createSession s.caller).start outlasted.engine).1 = .error .timeOutOfRange := by
  have hrewound : rewound.engine.PassesBy (sessionId 2) :=
    Engine.passesBy_of_any (c := .ada) (by decide +kernel) (by decide +kernel) (by decide +kernel)
  have hovertaken : overtaken.engine.PassesBy (sessionId 2) :=
    Engine.passesBy_of_any (c := .ada) (by decide +kernel) (by decide +kernel) (by decide +kernel)
  have hlapsed : (outlasted.engine.store.get? (sessionId 1)).any (fun s => s.isActive &&
      decide (s.caller = .ada) && s.isPastExpiry outlasted.engine.now) = true := by
    decide +kernel
  have hnone : (outlasted.engine.store.findLive? "greeting" "555" "*1#"
    outlasted.engine.now).isNone = true := by decide +kernel
  have hlate : (outlasted.engine.now.afterSeconds?
    outlasted.engine.settings.sessionTimeout).isNone = true := by decide +kernel
  have hserved : (outlasted.engine.registry.get? "greeting").isSome = true := by decide +kernel
  obtain ⟨s, hget, hs⟩ := (Option.any_eq_true _ _).1 hlapsed
  obtain ⟨f, hf⟩ := Option.isSome_iff_exists.1 hserved
  simp only [Bool.and_eq_true, decide_eq_true_eq] at hs
  obtain ⟨e', hstart, -⟩ := start_createSession_of_late (c := .ada) hf
    (Option.isNone_iff_eq_none.1 hnone) (Option.isNone_iff_eq_none.1 hlate)
  have hflow : s.flowId = "greeting" := congrArg Caller.flowId hs.1.2
  refine ⟨⟨timely_redialled.reachable.step (.perform ..), hrewound⟩, ⟨?_, hovertaken⟩,
    (reachable_greetings .endless).step (.perform ..), s, f, hget, hs.1.1, hflow ▸ hf, hs.2, ?_⟩
  · exact (((((((reachable_greetings .standard).step (.begin _ (.input (sessionId 1) "Ada"))).step
      (.proceed _ 0)).step (.proceed _ 0)).step (.perform _ (.turnClock _))).step
        (.perform _ (.create .ada))).step (.proceed _ 0))
  · rw [hs.1.2, hstart]

end Service

end UssdFlows
