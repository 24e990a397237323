import UssdFlows.Proofs.Engine.Confined
import UssdFlows.Proofs.Engine.Sound

/-!
# Live sessions of callers

A caller has a live session if one is stored that is active and has not been idle
for too long.  Nothing but the start of a session gives a caller one more: every
other program *wanes* (`EngineM.Waning`), that is, whatever is live when it is
over has been live before.  An input is no exception, though it renews its
session, since it is only admitted to a session that is live.

A session is started for a caller who has none, so an engine in which nobody has
two stays so through all its operations (`Engine.Single`,
`Engine.Single.createSession`).
-/

namespace UssdFlows

open EngineM

variable {α β : Type} {e e' e'' : Engine} {id : String} {s : Session} {may : Effect → Prop}
  {c : Caller} {f : Flow}

/-! ## Callers with a live session -/

/-- The caller that a session belongs to. -/
def Session.caller (s : Session) : Caller := ⟨s.flowId, s.phoneNumber, s.ussdCode⟩

theorem Session.Follows.caller {s' : Session} (h : s.Follows may s') : s'.caller = s.caller := by
  rw [Session.caller, Session.caller, h.flowId, h.phoneNumber, h.ussdCode]

theorem SessionStore.findLive?_eq (t : SessionStore) (c : Caller) (now : Instant) :
    t.findLive? c.flowId c.phoneNumber c.ussdCode now =
      t.sessions.items.find? fun s => s.isLive now && decide (s.caller = c) := by
  obtain ⟨flowId, phoneNumber, ussdCode⟩ := c
  refine congrArg (t.sessions.items.find? ·) (funext fun s => ?_)
  rw [Bool.eq_iff_iff]
  simp only [Session.isLive, Session.caller, Bool.and_eq_true, beq_iff_eq, decide_eq_true_eq,
    Caller.mk.injEq]
  grind

namespace Engine

/-- A caller has a live session. -/
def HasLive (e : Engine) (c : Caller) : Prop :=
  ∃ id s, e.store.get? id = some s ∧ s.isLive e.now = true ∧ s.caller = c

/-- No caller has two live sessions. -/
def Single (e : Engine) : Prop :=
  ∀ id id' s s', e.store.get? id = some s → e.store.get? id' = some s' →
    s.isLive e.now = true → s'.isLive e.now = true → s.caller = s'.caller → s = s'

/-- No session of the caller of this one is live, except for this one perhaps. -/
def Foremost (e : Engine) (id : String) : Prop :=
  ∀ s id' s', e.store.get? id = some s → e.store.get? id' = some s' → s'.isLive e.now = true →
    s'.caller = s.caller → id' = id

/-- Whatever is live afterwards has been live before, as a session of the same
caller. -/
def Wanes (e e' : Engine) : Prop :=
  ∀ id s', e'.store.get? id = some s' → s'.isLive e'.now = true →
    ∃ s, e.store.get? id = some s ∧ s.isLive e.now = true ∧ s.caller = s'.caller

theorem Wanes.refl (e : Engine) : e.Wanes e := fun _ s hget hlive => ⟨s, hget, hlive, rfl⟩

theorem Wanes.trans (h : e.Wanes e') (h' : e'.Wanes e'') : e.Wanes e'' := by
  intro id s'' hget'' hlive''
  obtain ⟨s', hget', hlive', hcaller'⟩ := h' id s'' hget'' hlive''
  obtain ⟨s, hget, hlive, hcaller⟩ := h id s' hget' hlive'
  exact ⟨s, hget, hlive, hcaller.trans hcaller'⟩

theorem Wanes.hasLive (h : e.Wanes e') (hlive : e'.HasLive c) : e.HasLive c := by
  obtain ⟨id, s', hget', hlive', hcaller'⟩ := hlive
  obtain ⟨s, hget, hlive, hcaller⟩ := h id s' hget' hlive'
  exact ⟨id, s, hget, hlive, hcaller.trans hcaller'⟩

theorem Single.of_wanes (h : e.Single) (hw : e.Wanes e') : e'.Single := by
  intro id id' s s' hget hget' hlive hlive' hcaller
  obtain ⟨r, hr, hrlive, hrcaller⟩ := hw id s hget hlive
  obtain ⟨r', hr', hrlive', hrcaller'⟩ := hw id' s' hget' hlive'
  have hsame : r = r' :=
    h id id' r r' hr hr' hrlive hrlive' (hrcaller.trans (hcaller.trans hrcaller'.symm))
  have hid : id = id' := by
    rw [← KeyedList.key_of_find? hr, ← KeyedList.key_of_find? hr', hsame]
  rw [hid, hget', Option.some.injEq] at hget
  exact hget.symm

theorem Single.foremost (h : e.Single)
    (hlive : ∀ s, e.store.get? id = some s → s.isLive e.now = true) : e.Foremost id := by
  intro s id' s' hget hget' hlive' hcaller
  have hsame : s' = s := h id' id s' s hget' hget hlive' (hlive s hget) hcaller
  rw [← KeyedList.key_of_find? hget', ← KeyedList.key_of_find? hget, hsame]

theorem Foremost.of_wanes (h : e.Foremost id) (hw : e.Wanes e')
    (hsame : e'.store.get? id = e.store.get? id) : e'.Foremost id := by
  intro s id' s' hget hget' hlive' hcaller
  obtain ⟨r, hr, hrlive, hrcaller⟩ := hw id' s' hget' hlive'
  exact h s id' r (hsame ▸ hget) hr hrlive (hrcaller.trans hcaller)

theorem wanes_of_store (hstore : e'.store = e.store) (hnow : e'.now = e.now) : e.Wanes e' := by
  intro id s hget hlive
  rw [hstore] at hget
  rw [hnow] at hlive
  exact ⟨s, hget, hlive, rfl⟩

theorem Alike.wanes (h : e.Alike e') : e.Wanes e' := wanes_of_store h.store h.service.now

/-- What may renew a live session only leaves nothing live that was not so before. -/
theorem Touches.wanes (h : e.Touches may id e')
    (hlive : may .renew → ∀ s, e.store.get? id = some s → s.isLive e.now = true) : e.Wanes e' := by
  intro j s' hget' hlive'
  by_cases hj : j = id
  · subst hj
    obtain ⟨s, hget, hfollows⟩ := h.own s' hget'
    refine ⟨s, hget, ?_, ?_⟩
    · by_cases hmay : may .renew
      · exact hlive hmay s hget
      · rw [Session.isLive, Bool.and_eq_true] at hlive' ⊢
        refine ⟨hfollows.active hlive'.1, ?_⟩
        have hexpiry := hlive'.2
        rw [Session.isPastExpiry, hfollows.expiry hmay, h.service.now] at hexpiry
        exact hexpiry
    · exact hfollows.caller.symm
  · rw [h.others j hj] at hget'
    rw [h.service.now] at hlive'
    exact ⟨s', hget', hlive', rfl⟩

/-- A session may be renewed, even if it is not live, if no other one of its caller
is. -/
theorem Touches.single (h : e.Touches may id e') (hs : e.Single)
    (hf : may .renew → e.Foremost id) : e'.Single := by
  by_cases hmay : may .renew
  · -- nothing else is live that was not so before
    have hother : ∀ {j s' r'}, j ≠ id → e'.store.get? j = some s' → s'.isLive e'.now = true →
        e'.store.get? id = some r' → s'.caller = r'.caller → False := by
      intro j s' r' hj hget' hlive' hr' hcaller
      obtain ⟨r, hr, hfollows⟩ := h.own r' hr'
      rw [h.others j hj] at hget'
      rw [h.service.now] at hlive'
      exact hj (hf hmay r j s' hr hget' hlive' (hcaller.trans hfollows.caller))
    intro j j' s s' hget hget' hlive hlive' hcaller
    by_cases hj : j = id
    · subst hj
      by_cases hj' : j' = j
      · subst hj'
        exact Option.some.inj (hget.symm.trans hget')
      · exact (hother hj' hget' hlive' hget hcaller.symm).elim
    · by_cases hj' : j' = id
      · subst hj'
        exact (hother hj hget hlive hget' hcaller).elim
      · rw [h.others _ hj] at hget
        rw [h.others _ hj'] at hget'
        rw [h.service.now] at hlive hlive'
        exact hs j j' s s' hget hget' hlive hlive' hcaller
  · exact hs.of_wanes (h.wanes fun hmay' => absurd hmay' hmay)

/-- Nothing is stored afterwards but the new session and what was stored before. -/
theorem get?_opened_cases {r : Session} (h : (e.opened s).store.get? id = some r) :
    r = s ∨ e.store.get? id = some r := by
  rw [get?_opened] at h
  split at h
  · exact Or.inl (Option.some.inj h).symm
  · exact Or.inr h

theorem hasLive_opened (h : (e.opened s).HasLive c) : e.HasLive c ∨ s.caller = c := by
  obtain ⟨id, r, hget, hlive, hcaller⟩ := h
  rcases get?_opened_cases hget with rfl | hstored
  · exact Or.inr hcaller
  · exact Or.inl ⟨id, r, hstored, hlive, hcaller⟩

/-- A session may be stored whose caller has none that is live. -/
theorem Single.opened (h : e.Single) (hnone : ¬ e.HasLive s.caller) : (e.opened s).Single := by
  intro id id' r r' hget hget' hlive hlive' hcaller
  rcases get?_opened_cases hget with rfl | hstored
  · rcases get?_opened_cases hget' with rfl | hstored'
    · rfl
    · exact absurd ⟨id', r', hstored', hlive', hcaller.symm⟩ hnone
  · rcases get?_opened_cases hget' with rfl | hstored'
    · exact absurd ⟨id, r, hstored, hlive, hcaller⟩ hnone
    · exact h id id' r r' hstored hstored' hlive hlive' hcaller

/-- The live session of a caller is the one that is found. -/
theorem Single.findLive?_eq_some (h : e.Single) (hget : e.store.get? id = some s)
    (hlive : s.isLive e.now = true) :
    e.store.findLive? s.flowId s.phoneNumber s.ussdCode e.now = some s := by
  have hmem := KeyedList.mem_of_find? hget
  rw [show e.store.findLive? s.flowId s.phoneNumber s.ussdCode e.now = _ from
    e.store.findLive?_eq s.caller e.now]
  cases hfound : e.store.sessions.items.find? fun r =>
      r.isLive e.now && decide (r.caller = s.caller) with
  | none =>
      have hnot := List.find?_eq_none.1 hfound s hmem
      rw [hlive, decide_eq_true rfl] at hnot
      exact absurd rfl hnot
  | some r =>
      have hr := List.find?_some hfound
      rw [Bool.and_eq_true, decide_eq_true_eq] at hr
      have hstored : e.store.get? r.id = some r :=
        KeyedList.find?_eq_some_iff.2 ⟨List.mem_of_find?_eq_some hfound, rfl⟩
      rw [h r.id id r s hstored hget hr.1 hlive hr.2]

/-- A caller for whom no session is found has none that is live. -/
theorem not_hasLive_of_findLive?
    (hnone : e.store.findLive? c.flowId c.phoneNumber c.ussdCode e.now = none) :
    ¬ e.HasLive c := by
  rintro ⟨id, s, hget, hlive, hcaller⟩
  rw [SessionStore.findLive?_eq] at hnone
  have hnot := List.find?_eq_none.1 hnone s (KeyedList.mem_of_find? hget)
  rw [hlive, decide_eq_true hcaller] at hnot
  exact hnot rfl

end Engine

/-! ## Programs that wane -/

namespace EngineM

/-- Whatever is live when the program is over has been live before. -/
def Waning (x : EngineM α) : Prop := ∀ e : Engine, e.Wanes (x.start e).2

theorem Confined.waning {x : EngineM α} (h : Confined may id x) (hno : ¬ may .renew) : Waning x :=
  fun e => (h.touches e).wanes fun hmay => absurd hmay hno

theorem waning_of_alike {x : EngineM α} (h : ∀ e : Engine, e.Alike (x.start e).2) : Waning x :=
  fun e => (h e).wanes

theorem wanes_bind {x : EngineM α} {g : α → EngineM β} (hx : e.Wanes (x.start e).2)
    (hg : ∀ a e', x.start e = (.ok a, e') → e'.Wanes ((g a).start e').2) :
    e.Wanes ((x >>= g).start e).2 :=
  state_bind hx fun a e' hstart h => h.trans (hg a e' hstart)

theorem Waning.bind {x : EngineM α} {g : α → EngineM β} (hx : Waning x)
    (hg : ∀ a, Waning (g a)) : Waning (x >>= g) :=
  fun e => wanes_bind (hx e) fun a e' _ => hg a e'

theorem Waning.attempt {x : EngineM α} (h : Waning x) : Waning (EngineM.attempt x) := h

theorem waning_pure (a : α) : Waning (pure a) := fun e => .refl e

theorem waning_discard (key : String) : Waning (discard key) :=
  waning_of_alike fun e => e.alike_locks _

theorem waning_count (m : Metric) : Waning (count m) := waning_of_alike fun e => e.alike_tally m 1

/-- A section makes no difference. -/
theorem Waning.hold {x : EngineM α} (h : Waning x) (key : String) : Waning (hold key x) := by
  intro e
  obtain ⟨e₁, e₂, ⟨halike, -⟩, ⟨halike', -⟩, hstart⟩ := start_hold_calm key x e
  rw [hstart]
  exact (halike.wanes.trans (h e₁)).trans halike'.wanes

end EngineM

namespace Turn

/-- A stage renews a live session only. -/
theorem wanes_perform (t : Turn) (σ : Stage) (h : σ = .recordInput →
    ∀ s, e.store.get? t.sessionId = some s → s.isLive e.now = true) :
    e.Wanes ((t.perform σ).start e).2 :=
  ((t.confined_perform σ).touches e).wanes fun hmay => h hmay.eq_recordInput

theorem wanes_run (limit : Nat) (σ : Stage) (t : Turn) (h : σ = .recordInput →
    ∀ s, e.store.get? t.sessionId = some s → s.isLive e.now = true) :
    e.Wanes ((run limit σ t).start e).2 := by
  induction limit generalizing σ t e with
  | zero => exact .refl e
  | succ limit ih =>
      refine wanes_bind (t.wanes_perform σ h) fun t' e' _ => ?_
      cases hn : t'.next? σ with
      | none => exact .refl e'
      | some σ' =>
          refine ih σ' t' fun hσ' => ?_
          exact absurd (hσ' ▸ hn) (t'.next?_ne_recordInput σ)

/-- A turn without input renews nothing. -/
theorem waning_play {t : Turn} (h : t.input = none) : Waning t.play := by
  intro e
  refine wanes_run _ _ t fun hσ => ?_
  rw [entry, h] at hσ
  simp only [Option.isSome_none, Bool.false_eq_true, if_false] at hσ
  split at hσ <;> cases hσ

end Turn

/-! ## Whole operations -/

theorem not_isFinish_renew : ¬ Effect.IsFinish .renew := by
  rintro ⟨⟩

/-- An input is only admitted to a live session, so it may renew it. -/
theorem waning_answerInput (id text : String) : Waning (answerInput id text) := by
  intro e
  refine wanes_bind ((confined_admission id text).waning not_isFinish_renew e) fun a e' hstart => ?_
  rcases a with t | status | -
  · obtain ⟨rfl, s, f, n, hget, hlive, -, -, rfl⟩ := admission_admitted hstart
    refine wanes_bind (Turn.wanes_run _ _ _ fun _ s' hget' => ?_) fun t' e₁ _ => ?_
    · cases hget.symm.trans hget'
      exact hlive
    · have hshown : Confined Effect.IsFinish id (navigationOf t') := confined_navigationOf t'
      exact (hshown.waning not_isFinish_renew).bind (fun shown => waning_pure _) e₁
  · exact .refl e'
  · exact .refl e'

theorem waning_concludeInput (id : String) (r : Except EngineError Answered) :
    Waning (concludeInput id r) := by
  refine (waning_count _).bind fun _ => (waning_count _).bind fun _ => ?_
  have hend := (confined_answered id r : Confined Effect.IsFinish id _).waning not_isFinish_renew
  dsimp only
  split
  · exact (waning_discard id).bind fun _ => hend
  · exact hend

theorem waning_processInput (id text : String) : Waning (processInput id text) :=
  ((waning_answerInput id text).hold id).attempt.bind fun r => waning_concludeInput id r

theorem waning_terminateSession (id reason : String) : Waning (terminateSession id reason) := by
  refine (((confined_endSession id reason).waning not_isFinish_renew).hold id).bind fun s => ?_
  exact (waning_discard id).bind fun _ => waning_pure s

theorem waning_expireSession (id : String) (now : Instant) : Waning (expireSession id now) := by
  refine (((confined_lapseIfDue id now).waning not_isFinish_renew).hold id).bind fun isDone => ?_
  cases isDone with
  | true => exact (waning_discard id).bind fun _ => waning_pure true
  | false => exact waning_pure false

theorem waning_expireEach (now : Instant) (ids : List String) : Waning (expireEach now ids) := by
  induction ids with
  | nil => exact waning_pure 0
  | cons id rest ih =>
      exact (waning_expireSession id now).bind fun isDone => ih.bind fun count => waning_pure _

/-- Sessions may be dropped. -/
theorem Engine.wanes_dropStale (e : Engine) (retention : Int) (now : Instant) :
    e.Wanes { e with store := e.store.dropStale retention now } := by
  intro id s hget hlive
  obtain ⟨hmem, hid⟩ := KeyedList.find?_eq_some_iff.1 hget
  exact ⟨s, KeyedList.find?_eq_some_iff.2 ⟨(List.mem_filter.1 hmem).1, hid⟩, hlive, rfl⟩

theorem waning_sweep (retention : Int) (now : Instant) : Waning (sweep retention now) := by
  intro e
  refine wanes_bind (.refl e) fun e₀ e₁ _ => ?_
  refine wanes_bind (waning_expireEach now _ e₁) fun count e₂ _ => ?_
  exact wanes_bind (e₂.wanes_dropStale retention now) fun _ e₃ _ => .refl e₃

/-! ## Starting sessions -/

/-- A session that is opened for a caller is his. -/
theorem Session.caller_newlyOpened (id : String) (hf : f.id = c.flowId) (now expiry : Instant) :
    (newlyOpened id f c now expiry).caller = c := by
  rw [caller, newlyOpened, hf]

/-- The live session that is found for a caller is what he gets, and nothing is
created. -/
theorem start_createSession_of_found (hf : e.registry.get? c.flowId = some f)
    (hfound : e.store.findLive? c.flowId c.phoneNumber c.ussdCode e.now = some s) :
    ∃ locks, (createSession c).start e = (.ok s, { e with locks }) := by
  have hopen : ∀ locks : Locks, (findOrOpen f c).start { e with locks } =
      (.ok (s, false), { e with locks }) := by
    intro locks
    have hopened : (openSession f c).start { e with locks } =
        (.ok (.resumed s), { e with locks }) := by
      rw [openSession, start_bind_of_ok (start_get _)]
      dsimp only
      rw [hfound]
      rfl
    rw [findOrOpen, start_bind_of_ok hopened]
    rfl
  have hheld : ∃ locks, (EngineM.hold c.key (findOrOpen f c)).start e =
      (.ok (s, false), { e with locks }) := by
    rw [start_hold]
    dsimp only [enterLock, start_modifyGet]
    rw [hopen]
    exact ⟨_, rfl⟩
  obtain ⟨locks, hstart⟩ := hheld
  refine ⟨locks, ?_⟩
  rw [createSession, start_bind_of_ok (start_currentFlow_of_some hf), start_bind_of_ok hstart]
  rfl

/-- Inside a section things are as outside. -/
theorem Engine.single_hold (key : String) {x : EngineM α}
    (hx : ∀ e₁, e.Alike e₁ → (x.start e₁).2.Single) : ((hold key x).start e).2.Single := by
  obtain ⟨e₁, e₂, ⟨halike, -⟩, ⟨halike', -⟩, hstart⟩ := start_hold_calm key x e
  rw [hstart]
  exact (hx e₁ halike).of_wanes halike'.wanes

theorem Engine.single_bind {x : EngineM α} {g : α → EngineM β} (hx : (x.start e).2.Single)
    (hg : ∀ a, Waning (g a)) : ((x >>= g).start e).2.Single :=
  state_bind hx fun a e' _ h => h.of_wanes (hg a e')

namespace Engine.Single

theorem settleSession {t : Turn} (h : e.Single) (hnone : ¬ e.HasLive s.caller)
    (ht : t.input = none) : ((UssdFlows.settleSession s t).start e).2.Single := by
  refine single_hold s.id fun e₁ halike => ?_
  have hnone₁ : ¬ e₁.HasLive s.caller := fun hlive => hnone (halike.wanes.hasLive hlive)
  have hserved : ∀ t' : Turn, Waning (servedBy t') := fun t' =>
    (confined_served t'.sessionId : Confined Effect.IsFinish t'.sessionId (servedBy t')).waning
      not_isFinish_renew
  rcases start_storeSession s e₁ with hstart | hstart
  · rw [start_bind_of_ok hstart]
    refine ((h.of_wanes halike.wanes).opened hnone₁).of_wanes ?_
    exact (Turn.waning_play ht).bind hserved (e₁.opened s)
  · rw [start_bind_of_error hstart]
    exact h.of_wanes halike.wanes

theorem findOrOpen (h : e.Single) (hf : f.id = c.flowId) :
    ((UssdFlows.findOrOpen f c).start e).2.Single := by
  rw [UssdFlows.findOrOpen]
  cases hopen : (openSession f c).start e with
  | mk r e₁ =>
      have hopened : e.Wanes e₁ := by
        rcases openSession_cases hopen with rfl | rfl
        · exact .refl e₁
        · exact wanes_of_store rfl rfl
      rcases r with err | r | ⟨s, t⟩
      · rw [start_bind_of_error hopen]
        exact h.of_wanes hopened
      · rw [start_bind_of_ok hopen]
        exact h.of_wanes hopened
      · rw [start_bind_of_ok hopen]
        obtain ⟨hnone, rfl, expiry, n, rfl, -, rfl⟩ := openSession_opened hopen
        have hcaller := Session.caller_newlyOpened (sessionId e.nextSession) hf e.now expiry
        have hnone₁ : ¬ e.numbered.HasLive (Session.newlyOpened (sessionId e.nextSession) f c e.now
            expiry).caller := by
          rw [hcaller]
          exact fun hlive => not_hasLive_of_findLive? hnone (hopened.hasLive hlive)
        exact single_bind ((h.of_wanes hopened).settleSession hnone₁ rfl) fun s => waning_pure _

/-- **One live session.**  Starting a session leaves every caller with one live
session at most. -/
theorem createSession (h : e.Single) (c : Caller) :
    ((UssdFlows.createSession c).start e).2.Single := by
  cases hget : e.registry.get? c.flowId with
  | none =>
      rw [UssdFlows.createSession, start_bind_of_error (start_currentFlow_of_none hget)]
      exact h
  | some f =>
      rw [UssdFlows.createSession, start_bind_of_ok (start_currentFlow_of_some hget)]
      have hopened : ((EngineM.hold c.key (UssdFlows.findOrOpen f c)).start e).2.Single :=
        single_hold c.key fun e₁ halike =>
          (h.of_wanes halike.wanes).findOrOpen (Registry.mem_of_get? hget).2
      refine single_bind hopened fun opening => ?_
      split
      · exact (waning_discard c.key).bind fun _ => waning_pure _
      · exact waning_pure _

/-- A caller who has a live session goes on with it, as it is, and nothing is
created. -/
theorem start_createSession (h : e.Single) (hf : e.registry.get? s.flowId = some f)
    (hget : e.store.get? id = some s) (hlive : s.isLive e.now = true) :
    ∃ locks, (UssdFlows.createSession s.caller).start e = (.ok s, { e with locks }) :=
  start_createSession_of_found hf (h.findLive?_eq_some hget hlive)

end Engine.Single

end UssdFlows
