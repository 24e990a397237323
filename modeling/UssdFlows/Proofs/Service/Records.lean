import UssdFlows.Proofs.Engine.Inputs
import UssdFlows.Proofs.Service.Finality

/-!
# The records of sessions

The record of a session is *in order* (`Session.InOrder`): its inputs are numbered
from one, their times do not go back, the time of expiry follows the last of them,
and there is a time of completion or a reason just when the status calls for it.
Every deed keeps the records in order as long as the clock does not go back and
times of expiry can be written.

Each input that was admitted to a session, because it found the session live, is
recorded once, whatever comes of its turn, and nothing else is recorded
(`Service.Recorded`).  Between its admission and its recording nobody else has a
part in the session.
-/

namespace UssdFlows

open EngineM

variable {L : Ledger} {e e' e₁ : Engine} {v : Visitor} {id text : String} {s s' : Session}
  {about : Option String} {made : Option Session}

/-! ## Records in order -/

namespace Session

/-- The times of a session: when it was started, and when each input was received. -/
def times (s : Session) : List Nat :=
  s.startedAt.micros :: s.history.map fun r => r.timestamp.micros

/-- When the last input was received, or when the session was started. -/
def lastHeard (s : Session) : Instant :=
  (s.history.getLast?.map InputRecord.timestamp).getD s.startedAt

/-- The texts of the inputs received. -/
def texts (s : Session) : List String := s.history.map InputRecord.input

/-- The record of a session is in order at some time. -/
structure InOrder (timeout : Int) (now : Instant) (s : Session) : Prop where
  steps : s.stepCount = s.history.length
  numbers : s.history.map InputRecord.step = (List.range s.history.length).map fun i => (i : Int) + 1
  sorted : s.times.Pairwise (· ≤ ·)
  past : ∀ t ∈ s.times, t ≤ now.micros
  expiry : s.lastHeard.afterSeconds? timeout = some s.expiresAt
  completed : s.completedAt.isSome = true ↔ s.status = .completed
  terminated : s.terminationReason.isSome = true ↔ s.status = .terminated

variable {timeout : Int} {now later expiry : Instant}

theorem InOrder.mono (h : s.InOrder timeout now) (hle : now.micros ≤ later.micros) :
    s.InOrder timeout later :=
  { h with past := fun t ht => Nat.le_trans (h.past t ht) hle }

/-- A new session is in order. -/
theorem inOrder_newlyOpened (id : String) (f : Flow) (c : Caller)
    (h : now.afterSeconds? timeout = some expiry) :
    (Session.newlyOpened id f c now expiry).InOrder timeout now where
  steps := rfl
  numbers := rfl
  sorted := List.pairwise_singleton ..
  past := fun t ht => by
    rw [List.mem_singleton.1 ht]
    exact Nat.le_refl _
  expiry := h
  completed := by simp [newlyOpened]
  terminated := by simp [newlyOpened]

theorem status_of_isActive (ha : s.isActive = true) : s.status = .active := by
  simpa [isActive] using ha

/-- A session stays in order when an input is recorded. -/
theorem InOrder.received (h : s.InOrder timeout now) (input : String)
    (hexpiry : now.afterSeconds? timeout = some expiry) :
    ((s.record input now).expiringAt expiry).InOrder timeout now where
  steps := by
    simp [record, expiringAt, h.steps]
  numbers := by
    simp only [record, expiringAt, List.map_append, List.length_append, List.length_singleton,
      List.range_succ, h.numbers]
    simp [nextRecord, h.steps]
  sorted := by
    have htimes : ((s.record input now).expiringAt expiry).times = s.times ++ [now.micros] := by
      simp [times, record, expiringAt, nextRecord]
    rw [htimes, List.pairwise_append]
    refine ⟨h.sorted, List.pairwise_singleton .., fun t ht u hu => ?_⟩
    rw [List.mem_singleton.1 hu]
    exact h.past t ht
  past := fun t ht => by
    have htimes : ((s.record input now).expiringAt expiry).times = s.times ++ [now.micros] := by
      simp [times, record, expiringAt, nextRecord]
    rw [htimes, List.mem_append, List.mem_singleton] at ht
    rcases ht with ht | rfl
    · exact h.past t ht
    · exact Nat.le_refl _
  expiry := by
    simpa [lastHeard, record, expiringAt, nextRecord] using hexpiry
  completed := h.completed
  terminated := h.terminated

/-- What is neither about the inputs nor the time of expiry leaves the record in
order, if there still is a time of completion or a reason just when there should be. -/
theorem InOrder.of_same (h : s.InOrder timeout now) (hhistory : s'.history = s.history)
    (hsteps : s'.stepCount = s.stepCount) (hstarted : s'.startedAt = s.startedAt)
    (hexpires : s'.expiresAt = s.expiresAt)
    (hcompleted : s'.completedAt.isSome = true ↔ s'.status = .completed)
    (hterminated : s'.terminationReason.isSome = true ↔ s'.status = .terminated) :
    s'.InOrder timeout now where
  steps := by rw [hsteps, hhistory, h.steps]
  numbers := by rw [hhistory, h.numbers]
  sorted := by
    have hsorted := h.sorted
    rwa [times, ← hstarted, ← hhistory] at hsorted
  past := by
    have hpast := h.past
    rwa [times, ← hstarted, ← hhistory] at hpast
  expiry := by
    have hexpiry := h.expiry
    rwa [lastHeard, ← hstarted, ← hhistory, ← hexpires] at hexpiry
  completed := hcompleted
  terminated := hterminated

/-- A session stays in order on the move. -/
theorem InOrder.movedTo (h : s.InOrder timeout now) (n : Node) (later : Instant)
    (captured : Dict String) : ((s.movedTo n later).capture captured).InOrder timeout now :=
  h.of_same rfl rfl rfl rfl h.completed h.terminated

/-- An active session has neither a time of completion nor a reason. -/
theorem InOrder.open (h : s.InOrder timeout now) (ha : s.isActive = true) :
    s.completedAt = none ∧ s.terminationReason = none := by
  have hcompleted := h.completed
  have hterminated := h.terminated
  rw [status_of_isActive ha] at hcompleted hterminated
  simpa using And.intro hcompleted hterminated

theorem InOrder.finishedAt (h : s.InOrder timeout now) (ha : s.isActive = true)
    (captured : Dict String) (later : Instant) :
    ((s.capture captured).finishedAt later).InOrder timeout now := by
  refine h.of_same rfl rfl rfl rfl ?_ ?_
  · simp [Session.finishedAt]
  · simp [Session.finishedAt, capture, (h.open ha).2]

theorem InOrder.terminatedAt (h : s.InOrder timeout now) (ha : s.isActive = true)
    (reason : String) (later : Instant) : (s.terminatedAt reason later).InOrder timeout now := by
  refine h.of_same rfl rfl rfl rfl ?_ ?_
  · simp [Session.terminatedAt, (h.open ha).1]
  · simp [Session.terminatedAt]

theorem InOrder.expiredAt (h : s.InOrder timeout now) (ha : s.isActive = true)
    (later : Instant) : (s.expiredAt later).InOrder timeout now := by
  refine h.of_same rfl rfl rfl rfl ?_ ?_
  · simp [Session.expiredAt, (h.open ha).1]
  · simp [Session.expiredAt, (h.open ha).2]

end Session

/-! ## Deeds keep records in order -/

namespace Engine

/-- The records of all stored sessions are in order. -/
def InOrder (e : Engine) : Prop :=
  ∀ id s, e.store.get? id = some s → s.InOrder e.settings.sessionTimeout e.now

/-- A time of expiry that starts now can be written. -/
def CanRenew (e : Engine) : Prop :=
  (e.now.afterSeconds? e.settings.sessionTimeout).isSome = true

instance (e : Engine) : Decidable e.CanRenew := inferInstanceAs (Decidable (_ = true))

theorem InOrder.keep (h : e.InOrder) (hs : s.InOrder e.settings.sessionTimeout e.now) :
    ∀ id s', (e.keep s).store.get? id = some s' → s'.InOrder e.settings.sessionTimeout e.now := by
  intro id s' hget
  rw [get?_keep] at hget
  split at hget
  · cases hget
    exact hs
  · exact h id s' hget

theorem CanRenew.received? (h : e.CanRenew) (s : Session) (input : String) :
    ∃ s', s.received? input e.now e.settings.sessionTimeout = some s' := by
  obtain ⟨expiry, hexpiry⟩ := Option.isSome_iff_exists.1 h
  exact ⟨_, by rw [Session.received?, Session.renew?, hexpiry, Option.map_some]⟩

/-- Every deed keeps the records in order. -/
theorem Does.inOrder (h : e.Does made about e') (hs : e.InOrder) (hr : e.CanRenew)
    (hmade : ∀ s, made = some s → s.InOrder e.settings.sessionTimeout e.now) : e'.InOrder := by
  obtain ⟨hsettings, -, hnow⟩ := h.sameSettings
  obtain ⟨e₁, hdeed, hcalm⟩ := h
  intro id s' hget
  rw [hcalm.alike.store] at hget
  rw [hsettings, hnow]
  cases hdeed with
  | rests => exact hs id s' hget
  | numbers => exact hs id s' hget
  | opens hmade' hnew ha => exact hs.keep (hmade _ hmade') id s' hget
  | receives hget' ha hr' =>
      obtain ⟨expiry, hexpiry, rfl⟩ := Session.received?_eq_some hr'
      exact hs.keep ((hs _ _ hget').received _ hexpiry) id s' hget
  | @overruns _ s input hget' ha hr' =>
      obtain ⟨s'', hs''⟩ := hr.received? s input
      cases hr'.symm.trans hs''
  | asks hget' ha =>
      rw [store_requested] at hget
      exact hs id s' hget
  | moves hget' ha =>
      rw [store_moved] at hget
      exact hs.keep ((hs _ _ hget').movedTo _ _ _) id s' hget
  | finishes hget' ha => exact hs.keep ((hs _ _ hget').finishedAt ha _ _) id s' hget
  | complains hget' ha => exact hs id s' hget
  | lapses hget' ha hx => exact hs.keep ((hs _ _ hget').expiredAt ha _) id s' hget
  | terminates hget' ha => exact hs.keep ((hs _ _ hget').terminatedAt ha _ _) id s' hget

end Engine

/-! ## Inputs that are admitted and recorded -/

namespace Phase

variable {p p' : Phase} {purpose : Purpose} {lock left : Nat} {σ : Stage} {t : Turn}
  {r : Except EngineError Turn}

/-- The input that is about to be recorded, and the session that it is for. -/
def recorded? : Phase → Option (String × String)
  | playing _ _ _ .recordInput t => some (t.sessionId, t.input.getD "")
  | _ => none

/-- The input that a session is about to be sent which an operation finds live. -/
def admits (id : String) (e : Engine) : Phase → List String
  | entering (.input _ text) i _ =>
    if i = id ∧ (e.store.get? id).any (fun s => s.isLive e.now) = true then [text] else []
  | _ => []

/-- An operation that is about to store a session has made one whose record is in
order, and takes no input. -/
def Prepared (e : Engine) : Phase → Prop
  | settling _ _ s t _ => s.InOrder e.settings.sessionTimeout e.now ∧ s.history = [] ∧
      t.input = none
  | _ => True

theorem eq_of_recorded? (h : p.recorded? = some (id, text)) :
    ∃ purpose lock left t, p = .playing purpose lock left .recordInput t ∧ t.sessionId = id ∧
      t.input.getD "" = text := by
  cases p with
  | playing purpose lock left σ t =>
      cases σ with
      | recordInput =>
          simp only [recorded?, Option.some.injEq, Prod.mk.injEq] at h
          exact ⟨purpose, lock, left, t, rfl, h.1, h.2⟩
      | _ => cases h
  | _ => cases h

theorem subject?_of_recorded? (h : p.recorded? = some (id, text)) : p.subject? = some id := by
  obtain ⟨purpose, lock, left, t, rfl, rfl, -⟩ := eq_of_recorded? h
  rfl

theorem recorded?_playing (h : σ ≠ .recordInput) :
    (playing purpose lock left σ t).recorded? = none := by
  cases σ with
  | recordInput => exact absurd rfl h
  | _ => rfl

theorem mem_inside_of_recorded? (h : p.recorded? = some (id, text)) : id ∈ p.inside := by
  obtain ⟨purpose, lock, left, t, rfl, rfl, -⟩ := eq_of_recorded? h
  simp [inside]

theorem exists_of_admits (h : p.admits id e ≠ []) : ∃ i text lock,
    p = .entering (.input i text) id lock ∧ ∃ s, e.store.get? id = some s ∧ s.isLive e.now = true := by
  cases p with
  | entering call j lock =>
      cases call with
      | input i text =>
          by_cases hc : j = id ∧ (e.store.get? id).any (fun s => s.isLive e.now) = true
          · obtain ⟨rfl, hany⟩ := hc
            obtain ⟨s, hget, hlive⟩ := (Option.any_eq_true _ _).1 hany
            exact ⟨i, text, lock, rfl, s, hget, hlive⟩
          · exact absurd (if_neg hc) h
      | _ => exact absurd rfl h
  | _ => exact absurd rfl h

theorem admits_cases (p : Phase) (id : String) (e : Engine) :
    p.admits id e = [] ∨ ∃ text, p.admits id e = [text] := by
  by_cases h : p.admits id e = []
  · exact Or.inl h
  · obtain ⟨i, text, lock, rfl, s, hget, hlive⟩ := exists_of_admits h
    exact Or.inr ⟨text, if_pos ⟨rfl, (Option.any_eq_true _ _).2 ⟨s, hget, hlive⟩⟩⟩

/-- Only the recording of an input renews a session. -/
theorem recorded?_of_may (h : p.served? = some id) (hmay : p.May .renew) :
    ∃ text, p.recorded? = some (id, text) := by
  cases p with
  | playing purpose lock left σ t =>
      cases h
      cases Stage.May.eq_recordInput hmay
      exact ⟨_, rfl⟩
  | entering call i lock => cases hmay
  | _ => exact hmay.elim

/-- What an operation that goes on means to the inputs of a session: none is
admitted or recorded, or one is admitted, or the one that was admitted is recorded. -/
inductive Hears (id : String) (e : Engine) (p p' : Phase) (e' : Engine) : Prop where
  | nothing (hp : ∀ text, p.recorded? ≠ some (id, text))
      (hp' : ∀ text, p'.recorded? ≠ some (id, text)) (ha : p.admits id e = [])
      (hs : ∀ s', e'.store.get? id = some s' →
        (∃ s, e.store.get? id = some s ∧ s'.texts = s.texts) ∨ p.made? = some s')
  | admits (text : String) (hp : ∀ text, p.recorded? ≠ some (id, text))
      (hp' : p'.recorded? = some (id, text)) (ha : p.admits id e = [text]) (he : e' = e)
  | records (text : String) (hp : p.recorded? = some (id, text))
      (hp' : ∀ text, p'.recorded? ≠ some (id, text)) (ha : p.admits id e = [])
      (hs : ∀ s', e'.store.get? id = some s' →
        ∃ s, e.store.get? id = some s ∧ s'.texts = s.texts ++ [text])

theorem Plays.eq_of_recorded? (hp : Plays e p purpose lock left σ t r e')
    (h : p.recorded? = some (id, text)) :
    σ = .recordInput ∧ t.sessionId = id ∧ t.input.getD "" = text := by
  obtain ⟨purpose', lock', left', t', rfl, rfl, rfl⟩ := Phase.eq_of_recorded? h
  cases hp with
  | exhausted => exact ⟨rfl, rfl, rfl⟩
  | stage => exact ⟨rfl, rfl, rfl⟩

/-- An input is recorded if the session can be renewed. -/
theorem Plays.records {others : String → Prop}
    (hp : Plays e p purpose lock left .recordInput t r e') (h : p.Attends e)
    (hs : e.Sound L (p.Moving others)) (hf : p.Fits L e) (hr : e.CanRenew)
    (hget' : e'.store.get? t.sessionId = some s') :
    ∃ s, e.store.get? t.sessionId = some s ∧ s'.texts = s.texts ++ [t.input.getD ""] := by
  obtain ⟨s, hget, -⟩ := Engine.exists_of_hasActive (hp.attends h)
  have hid : s.id = t.sessionId := KeyedList.key_of_find? hget
  refine ⟨s, hget, ?_⟩
  cases hp with
  | exhausted => exact absurd (t.cost_pos .recordInput) (Nat.not_lt.2 hf.2)
  | stage hσ hstart =>
      obtain ⟨s'', hs''⟩ := hr.received? s (t.input.getD "")
      rw [Turn.perform, Turn.start_recordInput hget, hs''] at hstart
      cases hstart
      obtain ⟨expiry, -, rfl⟩ := Session.received?_eq_some hs''
      rw [Engine.store_received, Engine.get?_keep] at hget'
      cases (if_pos hid).symm.trans hget'
      simp [Session.texts, Session.expiringAt, Session.record, Session.nextRecord]

/-- Whoever is about to record an input has just been admitted with it. -/
theorem Goes.recorded (hg : Goes v e p p' e') (h : p.Prepared e)
    (hp' : p'.recorded? = some (id, text)) :
    (∃ i lock, p = .entering (.input i text) id lock) ∧ e' = e ∧
      ∃ s, e.store.get? id = some s ∧ s.isLive e.now = true := by
  cases hg with
  | @stores c callerLock s t lock _ _ =>
      have hentry : t.entry ≠ .recordInput := by
        rw [Turn.entry, h.2.2]
        cases t.node.isTransient <;> exact fun hσ => Stage.noConfusion hσ
      rw [recorded?_playing hentry] at hp'
      cases hp'
  | @admits i input j lock t _ hadmission =>
      obtain ⟨rfl, s, f, n, hget, hlive, -, -, rfl⟩ := admission_admitted hadmission
      cases hp'
      exact ⟨⟨i, lock, rfl⟩, rfl, s, hget, hlive⟩
  | @continues _ purpose lock left σ t t' σ' _ _ hn =>
      have hnext : σ' ≠ .recordInput := fun hσ' => t'.next?_ne_recordInput σ (hσ' ▸ hn)
      rw [recorded?_playing hnext] at hp'
      cases hp'
  | _ => cases hp'

/-- An input to a live session is admitted. -/
theorem Goes.admitted {others : String → Prop} {i : String} (hs : e.Sound L others)
    (hg : Goes v e (.entering (.input i text) id lock) p' e') (hget : e.store.get? id = some s)
    (hlive : s.isLive e.now = true) : p'.recorded? = some (id, text) := by
  obtain ⟨n, hawaits⟩ := hs.awaits hget hlive
  have hstart := start_admission_of_live hawaits.stored hawaits.active hawaits.inTime
    hawaits.pinned hawaits.node text
  cases hg with
  | admits hadmission =>
      cases hstart.symm.trans hadmission
      rfl
  | refuses hadmission hrefusal _ =>
      cases hstart.symm.trans hadmission
      cases hrefusal
  | continues hplays _ => cases hplays
  | concludes hplays _ _ _ => cases hplays

/-- The input that is about to be recorded is recorded next. -/
theorem Goes.records {others : String → Prop} (hg : Goes v e p p' e') (h : p.Attends e)
    (hs : e.Sound L (p.Moving others)) (hf : p.Fits L e) (hr : e.CanRenew)
    (hp : p.recorded? = some (id, text)) (hget' : e'.store.get? id = some s') :
    ∃ s, e.store.get? id = some s ∧ s'.texts = s.texts ++ [text] := by
  have hplays : ∃ purpose lock left t r e₁, Plays e p purpose lock left .recordInput t r e₁ ∧
      t.sessionId = id ∧ t.input.getD "" = text ∧ e'.store = e₁.store := by
    cases hg with
    | continues hplays _ =>
        obtain ⟨rfl, hid, htext⟩ := hplays.eq_of_recorded? hp
        exact ⟨_, _, _, _, _, _, hplays, hid, htext, rfl⟩
    | concludes hplays _ hc _ =>
        obtain ⟨rfl, hid, htext⟩ := hplays.eq_of_recorded? hp
        exact ⟨_, _, _, _, _, _, hplays, hid, htext, hc.alike.store⟩
    | _ => cases hp
  obtain ⟨purpose, lock, left, t, r, e₁, hplays, rfl, rfl, hstore⟩ := hplays
  rw [hstore] at hget'
  exact hplays.records h hs hf hr hget'

/-- **Inputs.**  What going on means to the inputs of each session. -/
theorem Goes.hears {others : String → Prop} (hg : Goes v e p p' e') (h : p.Attends e)
    (hprepared : p.Prepared e) (hs : e.Sound L (p.Moving others)) (hf : p.Fits L e)
    (hr : e.CanRenew) (hnew : ∀ s, p.made? = some s → e.store.get? s.id = none) (id : String) :
    Hears id e p p' e' := by
  have hdoes := hg.does h hs.replaced
  by_cases hrec : ∃ text, p.recorded? = some (id, text)
  · obtain ⟨text, hp⟩ := hrec
    have hnone : p.admits id e = [] := by
      obtain ⟨purpose, lock, left, t, rfl, -, -⟩ := eq_of_recorded? hp
      rfl
    refine .records text hp (fun text' hp' => ?_) hnone fun s' hget =>
      hg.records h hs hf hr hp hget
    obtain ⟨⟨i, lock, rfl⟩, -⟩ := hg.recorded hprepared hp'
    cases hp
  · by_cases hrec' : ∃ text, p'.recorded? = some (id, text)
    · obtain ⟨text, hp'⟩ := hrec'
      obtain ⟨⟨i, lock, rfl⟩, rfl, s, hget, hlive⟩ := hg.recorded hprepared hp'
      refine .admits text (fun text hp => hrec ⟨text, hp⟩) hp' (if_pos ⟨rfl, ?_⟩) rfl
      exact (Option.any_eq_true _ _).2 ⟨s, hget, hlive⟩
    · refine .nothing (fun text hp => hrec ⟨text, hp⟩) (fun text hp => hrec' ⟨text, hp⟩) ?_
        fun s' hget => ?_
      · by_contra hadmits
        obtain ⟨i, text, lock, rfl, s, hget, hlive⟩ := exists_of_admits hadmits
        exact hrec' ⟨text, hg.admitted hs hget hlive⟩
      · by_cases hid : p.subject? = some id
        · cases hget' : e.store.get? id with
          | none =>
              rw [hid] at hdoes
              exact Or.inr (hdoes.of_missing hget' hget)
          | some s =>
              have hserved : p.served? = some id := by
                cases p with
                | settling c callerLock s₁ t lock =>
                    cases hid
                    cases (hnew s₁ rfl).symm.trans hget'
                | _ => exact hid
              obtain ⟨s₁, hs₁, hfollows⟩ := (hg.touches hserved).own s' hget
              have hhistory := hfollows.history fun hmay => hrec (recorded?_of_may hserved hmay)
              exact Or.inl ⟨s₁, hget'.symm.trans hs₁, by rw [Session.texts, hhistory]; rfl⟩
        · rw [hdoes.others hid] at hget
          exact Or.inl ⟨s', hget, rfl⟩

theorem Prepared.congr (h : p.Prepared e) (hsettings : e'.settings = e.settings)
    (hnow : e'.now = e.now) : p.Prepared e' := by
  cases p with
  | settling c callerLock s t lock =>
      rw [Prepared, hsettings, hnow]
      exact h
  | _ => trivial

theorem Prepared.of_made (h : p.Prepared e) (hmade : p.made? = some s) :
    s.InOrder e.settings.sessionTimeout e.now ∧ s.texts = [] := by
  obtain ⟨c, callerLock, t, lock, rfl⟩ := eq_of_made? hmade
  exact ⟨h.1, by rw [Session.texts, h.2.1]; rfl⟩

/-- A session that was made just now has the next id, and no input was admitted
meanwhile. -/
theorem Goes.of_made (hg : Goes v e p p' e') (hmade : p'.made? = some s) :
    s.id = sessionId e.nextSession ∧ p.admits s.id e = [] := by
  obtain ⟨c, callerLock, t, lock, rfl⟩ := eq_of_made? hmade
  refine ⟨hg.settling, ?_⟩
  by_contra ha
  obtain ⟨i, text, lock', rfl, -⟩ := exists_of_admits ha
  cases hg

/-- Whether an operation is past the entrance of the section of its session. -/
def hasEntered : Phase → Bool
  | playing .. | acting .. | finished _ => true
  | _ => false

theorem Goes.hasEntered (hg : Goes v e p p' e') (h : p.hasEntered = true) :
    p'.hasEntered = true := by
  cases hg with
  | waits _ => rfl
  | continues _ _ => rfl
  | concludes _ _ _ _ => rfl
  | _ => cases h

/-- What has been admitted has entered. -/
theorem Goes.hasEntered_of_admits (hg : Goes v e p p' e') (h : p.admits id e ≠ []) :
    p.hasEntered = false ∧ p'.hasEntered = true := by
  obtain ⟨i, text, lock, rfl, -⟩ := exists_of_admits h
  refine ⟨rfl, ?_⟩
  cases hg with
  | admits _ => rfl
  | refuses _ _ _ => rfl
  | continues hplays _ => cases hplays
  | concludes hplays _ _ _ => cases hplays

theorem Goes.prepared (hg : Goes v e p p' e') : p'.Prepared e' := by
  cases hg with
  | opens hopen =>
      obtain ⟨-, rfl, expiry, n, hexpiry, rfl, -, rfl⟩ := openSession_made hopen
      exact ⟨Session.inOrder_newlyOpened _ _ _ hexpiry, rfl, rfl⟩
  | _ => trivial

end Phase

/-! ## Runs -/

namespace Service

/-- The inputs that were admitted to a session during a run, each with the place of
the operation that has brought it. -/
def admissions (w : Service) (id : String) (ms : List Move) : List (Nat × String) :=
  w.log (fun i t e => (t.phase.admits id e).map (Prod.mk i)) ms

variable {w : Service} {trail : String → List String} {sent : String → List (Nat × String)}

/-- The clock does not go back, and times of expiry can be written. -/
def Move.GoesOnward (e : Engine) : Move → Prop
  | .turnClock now => e.now.micros ≤ now.micros ∧ ({ e with now } : Engine).CanRenew
  | _ => True

instance (e : Engine) : (m : Move) → Decidable (m.GoesOnward e)
  | .turnClock _ => inferInstanceAs (Decidable (_ ∧ _))
  | .publish _ | .drop .. | .begin _ | .proceed _ => isTrue trivial

/-- The clock goes on during a run. -/
def GoesOnward : Service → List Move → Prop
  | _, [] => True
  | w, m :: ms => m.GoesOnward w.engine ∧ (w.make m).GoesOnward ms

/-- Whether the clock goes on during a run can be decided. -/
def decideGoesOnward : (w : Service) → (ms : List Move) → Decidable (w.GoesOnward ms)
  | _, [] => isTrue trivial
  | w, m :: ms =>
    match decideGoesOnward (w.make m) ms with
    | isTrue h => decidable_of_iff (m.GoesOnward w.engine) ⟨fun hm => ⟨hm, h⟩, And.left⟩
    | isFalse h => isFalse fun hms => h hms.2

instance (w : Service) (ms : List Move) : Decidable (w.GoesOnward ms) := decideGoesOnward w ms

/-- The inputs of a session are the ones that were admitted, or all but the last of
them, which is about to be recorded. -/
def Accounts (w : Service) (id : String) (s : Session) (admitted : List String) : Prop :=
  (s.texts = admitted ∧ ∀ (i : Nat) (t : Task) (text : String), w.tasks[i]? = some t →
    t.phase.recorded? ≠ some (id, text)) ∨
  ∃ (i : Nat) (t : Task) (text : String), w.tasks[i]? = some t ∧
    t.phase.recorded? = some (id, text) ∧ s.texts ++ [text] = admitted

/-- All records are in order, and hold the inputs that were admitted. -/
structure Recorded (L : Ledger) (w : Service) (trail : String → List String)
    (sent : String → List (Nat × String)) : Prop where
  trails : w.Trails L trail
  orderly : w.Orderly
  canRenew : w.engine.CanRenew
  inOrder : w.engine.InOrder
  prepared : ∀ (i : Nat) (t : Task), w.tasks[i]? = some t → t.phase.Prepared w.engine
  issued : ∀ id, sent id ≠ [] → IsIssued w.engine.nextSession id
  unsent : ∀ (i : Nat) (t : Task) (s : Session), w.tasks[i]? = some t → t.phase.made? = some s →
    sent s.id = []
  entered : ∀ id x, x ∈ sent id → ∃ t, w.tasks[x.1]? = some t ∧ t.phase.hasEntered = true
  nodup : ∀ id, ((sent id).map Prod.fst).Nodup
  accounts : ∀ id s, w.engine.store.get? id = some s → w.Accounts id s ((sent id).map Prod.snd)

namespace Recorded

/-- A session that is about to be stored is not stored yet. -/
theorem get?_made (h : w.Recorded L trail sent) {i : Nat} {t : Task} (ht : w.tasks[i]? = some t)
    (hmade : t.phase.made? = some s) : w.engine.store.get? s.id = none := by
  obtain ⟨c, n, r, k, hphase⟩ := Phase.eq_of_made? hmade
  exact h.trails.get?_settling ht hphase

/-- What an operation that goes on means to the inputs of a session. -/
theorem hears (h : w.Recorded L trail sent) {i : Nat} {t : Task} {p : Phase}
    (ht : w.tasks[i]? = some t) (hg : t.phase.Goes t.visitor w.engine p e') (id : String) :
    t.phase.Hears id w.engine p e' := by
  exact hg.hears (h.orderly.attends i t ht) (h.prepared i t ht)
    (h.trails.sound.engine.mono fun id => (moving_iff ht id).1)
    (h.trails.sound.tasks t (List.mem_of_getElem? ht)) h.canRenew (fun s => h.get?_made ht) id

/-- Nobody else is about to record an input of the session of an operation that can go
on. -/
theorem alone (h : w.Recorded L trail sent) {i j : Nat} {t u : Task} (ht : w.tasks[i]? = some t)
    (hcan : t.phase.canStep t.visitor w.engine = true) (hid : t.phase.subject? = some id)
    (hu : w.tasks[j]? = some u) (hji : j ≠ i) (text : String) :
    u.phase.recorded? ≠ some (id, text) := fun hrec =>
  h.trails.inLine.ne_of_inside ht hcan hu hji (Phase.mem_uses_of_subject? hid)
    (Phase.mem_inside_of_recorded? hrec)

/-- A session that is about to be stored has no inputs, and none was admitted to it. -/
theorem accounts_made (h : w.Recorded L trail sent) {i : Nat} {t : Task} {p : Phase}
    (ht : w.tasks[i]? = some t) (hcan : t.phase.canStep t.visitor w.engine = true)
    (hmade : t.phase.made? = some s') (hp : ∀ text, p.recorded? ≠ some (s'.id, text)) :
    (⟨e', w.tasks.set i { t with phase := p }, w.published⟩ : Service).Accounts s'.id s'
      ((sent s'.id).map Prod.snd) := by
  have hsubject := Phase.subject?_of_made? hmade
  rw [h.unsent i t s' ht hmade]
  refine Or.inl ⟨((h.prepared i t ht).of_made hmade).2, fun j u text hu => ?_⟩
  rcases set_cases hu with ⟨-, rfl⟩ | ⟨hji, hu⟩
  · exact hp text
  · exact h.alone ht hcan hsubject hu hji text

/-- The account of a session stays as it is while nothing is admitted or recorded. -/
theorem accounts_same (h : w.Recorded L trail sent) {i : Nat} {t : Task} {p : Phase}
    (ht : w.tasks[i]? = some t) (hget : w.engine.store.get? id = some s)
    (htexts : s'.texts = s.texts) (hp : ∀ text, t.phase.recorded? ≠ some (id, text))
    (hp' : ∀ text, p.recorded? ≠ some (id, text)) :
    (⟨e', w.tasks.set i { t with phase := p }, w.published⟩ : Service).Accounts id s'
      ((sent id).map Prod.snd) := by
  rcases h.accounts id s hget with ⟨hsame, hnobody⟩ | ⟨j, u, text, hu, hrec, hlast⟩
  · refine Or.inl ⟨htexts.trans hsame, fun j u text hu => ?_⟩
    rcases set_cases hu with ⟨-, rfl⟩ | ⟨-, hu⟩
    · exact hp' text
    · exact hnobody j u text hu
  · have hji : j ≠ i := by
      rintro rfl
      cases ht.symm.trans hu
      exact hp text hrec
    exact Or.inr ⟨j, u, text, (List.getElem?_set_ne hji.symm).trans hu, hrec, htexts ▸ hlast⟩

/-- An input that is admitted is about to be recorded. -/
theorem accounts_admits (h : w.Recorded L trail sent) {i : Nat} {t : Task} {p : Phase}
    {text : String} (ht : w.tasks[i]? = some t)
    (hcan : t.phase.canStep t.visitor w.engine = true)
    (hget : w.engine.store.get? id = some s) (hp : ∀ text, t.phase.recorded? ≠ some (id, text))
    (hp' : p.recorded? = some (id, text)) (ha : t.phase.admits id w.engine = [text]) :
    (⟨e', w.tasks.set i { t with phase := p }, w.published⟩ : Service).Accounts id s
      ((sent id).map Prod.snd ++ [text]) := by
  obtain ⟨hi, -⟩ := List.getElem?_eq_some_iff.1 ht
  obtain ⟨j, text', lock, hphase, -⟩ :=
    Phase.exists_of_admits (ha ▸ List.cons_ne_nil text [] : t.phase.admits id w.engine ≠ [])
  have hsubject : t.phase.subject? = some id := by
    rw [hphase]
    rfl
  rcases h.accounts id s hget with ⟨hsame, -⟩ | ⟨j, u, text', hu, hrec, -⟩
  · exact Or.inr ⟨i, { t with phase := p }, text, List.getElem?_set_self hi, hp', by rw [hsame]⟩
  · have hji : j ≠ i := by
      rintro rfl
      cases ht.symm.trans hu
      exact hp text' hrec
    exact absurd hrec (h.alone ht hcan hsubject hu hji text')

/-- An input that is recorded was the last one to be admitted. -/
theorem accounts_records (h : w.Recorded L trail sent) {i : Nat} {t : Task} {p : Phase}
    {text : String} (ht : w.tasks[i]? = some t)
    (hcan : t.phase.canStep t.visitor w.engine = true)
    (hget : w.engine.store.get? id = some s) (htexts : s'.texts = s.texts ++ [text])
    (hp : t.phase.recorded? = some (id, text)) (hp' : ∀ text, p.recorded? ≠ some (id, text)) :
    (⟨e', w.tasks.set i { t with phase := p }, w.published⟩ : Service).Accounts id s'
      ((sent id).map Prod.snd) := by
  have hsubject := Phase.subject?_of_recorded? hp
  refine Or.inl ⟨?_, fun j u text' hu => ?_⟩
  · rcases h.accounts id s hget with ⟨-, hnobody⟩ | ⟨j, u, text', hu, hrec, hlast⟩
    · exact absurd hp (hnobody i t text ht)
    · by_cases hji : j = i
      · subst hji
        cases ht.symm.trans hu
        cases hp.symm.trans hrec
        exact htexts.trans hlast
      · exact absurd hrec (h.alone ht hcan hsubject hu hji text')
  · rcases set_cases hu with ⟨-, rfl⟩ | ⟨hji, hu⟩
    · exact hp' text'
    · exact h.alone ht hcan hsubject hu hji text'

/-- The inputs that are recorded and admitted go together when an operation has gone
on. -/
theorem accounts_set (h : w.Recorded L trail sent) {i : Nat} {t : Task} {p : Phase}
    (ht : w.tasks[i]? = some t) (hcan : t.phase.canStep t.visitor w.engine = true)
    (hg : t.phase.Goes t.visitor w.engine p e') (hget' : e'.store.get? id = some s') :
    (⟨e', w.tasks.set i { t with phase := p }, w.published⟩ : Service).Accounts id s'
      ((sent id).map Prod.snd ++ t.phase.admits id w.engine) := by
  cases h.hears ht hg id with
  | nothing hp hp' ha hs =>
      rw [ha, List.append_nil]
      rcases hs s' hget' with ⟨s, hget, htexts⟩ | hmade
      · exact h.accounts_same ht hget htexts hp hp'
      · obtain rfl : s'.id = id := KeyedList.key_of_find? hget'
        exact h.accounts_made ht hcan hmade hp'
  | admits text hp hp' ha he =>
      subst he
      rw [ha]
      exact h.accounts_admits ht hcan hget' hp hp' ha
  | records text hp hp' ha hs =>
      obtain ⟨s, hget, htexts⟩ := hs s' hget'
      rw [ha, List.append_nil]
      exact h.accounts_records ht hcan hget htexts hp hp'

/-- Nothing is admitted to a session that is about to be stored. -/
theorem admits_of_made (h : w.Recorded L trail sent) {j : Nat} {u : Task}
    (hu : w.tasks[j]? = some u) (hmade : u.phase.made? = some s) (t : Task) : t.phase.admits s.id w.engine = [] := by
  by_contra ha
  obtain ⟨-, -, -, -, s', hget, -⟩ := Phase.exists_of_admits ha
  cases (h.get?_made hu hmade).symm.trans hget

/-- Nothing is admitted yet to sessions that operations are about to store, when one of
them has gone on. -/
theorem unsent_set (h : w.Recorded L trail sent) {i j : Nat} {t u : Task} {p : Phase}
    (hg : t.phase.Goes t.visitor w.engine p e')
    (hu : (w.tasks.set i { t with phase := p })[j]? = some u) (hmade : u.phase.made? = some s) :
    sent s.id = [] ∧ t.phase.admits s.id w.engine = [] := by
  rcases set_cases hu with ⟨-, rfl⟩ | ⟨-, hu⟩
  · -- the next id was not issued before, so nothing was admitted under it
    obtain ⟨hid, ha⟩ := hg.of_made hmade
    refine ⟨?_, ha⟩
    by_contra hsent
    exact (h.issued s.id hsent).ne hid
  · exact ⟨h.unsent j u s hu hmade, h.admits_of_made hu hmade t⟩

/-- Whoever has brought an input that was admitted is past the entrance. -/
theorem entered_set (h : w.Recorded L trail sent) {i : Nat} {t : Task} {p : Phase}
    (ht : w.tasks[i]? = some t) (hg : t.phase.Goes t.visitor w.engine p e') {x : Nat × String}
    (hx : x ∈ sent id ++ (t.phase.admits id w.engine).map (Prod.mk i)) :
    ∃ u, (w.tasks.set i { t with phase := p })[x.1]? = some u ∧ u.phase.hasEntered = true := by
  obtain ⟨hi, -⟩ := List.getElem?_eq_some_iff.1 ht
  rcases List.mem_append.1 hx with hx | hx
  · obtain ⟨u, hu, hentered⟩ := h.entered id x hx
    by_cases hxi : x.1 = i
    · rw [hxi] at hu ⊢
      cases ht.symm.trans hu
      exact ⟨{ t with phase := p }, List.getElem?_set_self hi, hg.hasEntered hentered⟩
    · exact ⟨u, (List.getElem?_set_ne (Ne.symm hxi)).trans hu, hentered⟩
  · obtain ⟨text, htext, rfl⟩ := List.mem_map.1 hx
    exact ⟨_, List.getElem?_set_self hi, (hg.hasEntered_of_admits (List.ne_nil_of_mem htext)).2⟩

/-- No operation brings two inputs: whoever was admitted before is past the
entrance. -/
theorem nodup_set (h : w.Recorded L trail sent) {i : Nat} {t : Task} {p : Phase}
    (ht : w.tasks[i]? = some t) (hg : t.phase.Goes t.visitor w.engine p e') (id : String) :
    ((sent id ++ (t.phase.admits id w.engine).map (Prod.mk i)).map Prod.fst).Nodup := by
  rcases t.phase.admits_cases id w.engine with ha | ⟨text, ha⟩
  · rw [ha, List.map_nil, List.append_nil]
    exact h.nodup id
  · have hentering := (hg.hasEntered_of_admits (by simp [ha] : t.phase.admits id w.engine ≠ [])).1
    rw [ha, List.map_append]
    refine (h.nodup id).append (List.nodup_singleton i) fun j hj hji => ?_
    obtain ⟨x, hx, rfl⟩ := List.mem_map.1 hj
    obtain ⟨u, hu, hentered⟩ := h.entered id x hx
    rw [List.mem_singleton.1 hji] at hu
    cases ht.symm.trans hu
    exact Bool.false_ne_true (hentering.symm.trans hentered)

theorem set (h : w.Recorded L trail sent) {L' : Ledger} {trail' : String → List String} {i : Nat}
    {t : Task} {p : Phase} (ht : w.tasks[i]? = some t)
    (hcan : t.phase.canStep t.visitor w.engine = true)
    (hg : t.phase.Goes t.visitor w.engine p e')
    (hnext : w.engine.nextSession ≤ e'.nextSession)
    (htrails : (⟨e', w.tasks.set i { t with phase := p }, w.published⟩ : Service).Trails L' trail')
    (horderly : (⟨e', w.tasks.set i { t with phase := p }, w.published⟩ : Service).Orderly) :
    (⟨e', w.tasks.set i { t with phase := p }, w.published⟩ : Service).Recorded L' trail'
      fun id => sent id ++ (t.phase.admits id w.engine).map (Prod.mk i) := by
  have hdoes := h.orderly.does ht hg
  obtain ⟨hsettings, -, hnow⟩ := hdoes.sameSettings
  refine ⟨htrails, horderly, ?_, ?_, fun j u hu => ?_, fun id hne => ?_, fun j u s hu hmade => ?_,
    fun id x hx => h.entered_set ht hg hx, h.nodup_set ht hg, fun id s' hget' => ?_⟩
  · have hcan := h.canRenew
    rwa [Engine.CanRenew, ← hsettings, ← hnow] at hcan
  · exact hdoes.inOrder h.inOrder h.canRenew fun s hmade => ((h.prepared i t ht).of_made hmade).1
  · rcases set_cases hu with ⟨-, rfl⟩ | ⟨-, hu⟩
    · exact hg.prepared
    · exact (h.prepared j u hu).congr hsettings hnow
  · by_cases hsent : sent id = []
    · rw [hsent, List.nil_append] at hne
      obtain ⟨-, -, -, -, s, hget, -⟩ :=
        Phase.exists_of_admits fun ha : t.phase.admits id w.engine = [] => hne (by rw [ha]; rfl)
      exact (h.trails.sound.engine.stored hget).2.1.mono hnext
    · exact (h.issued id hsent).mono hnext
  · obtain ⟨hsent, ha⟩ := h.unsent_set hg hu hmade
    rw [hsent, ha]
    rfl
  · rw [List.map_append, List.map_map]
    simpa [Function.comp_def] using h.accounts_set ht hcan hg hget'

theorem proceed (h : w.Recorded L trail sent) (i : Nat) :
    ∃ L' trail', (w.proceed i).Recorded L' trail' fun id => sent id ++
      noted (fun i t e => (t.phase.admits id e).map (Prod.mk i)) w (.proceed i) := by
  obtain ⟨L', -, hnext, htrails⟩ := h.trails.proceed i
  have horderly := h.orderly.proceed i
  refine ⟨L', fun id => trail id ++ noted (fun _ t e => t.phase.visited id e) w (.proceed i), ?_⟩
  rcases proceed_cases w i with ⟨hsame, hnote⟩ | ⟨t, p, e', ht, hcan, -, hg, hgoes, hnote⟩
  · simp only [hnote, List.append_nil] at htrails ⊢
    rw [hsame] at htrails horderly ⊢
    exact { h with trails := htrails, orderly := horderly }
  · simp only [hnote] at htrails ⊢
    rw [hgoes] at htrails horderly hnext ⊢
    exact h.set ht hcan hg hnext htrails horderly

/-- The engine changes without an operation going on: no session changes, and the
clock is not turned back. -/
theorem of_engine (h : w.Recorded L trail sent) {L' : Ledger} {trail' : String → List String}
    {published : List Flow} (htrails : (⟨e', w.tasks, published⟩ : Service).Trails L' trail')
    (horderly : (⟨e', w.tasks, published⟩ : Service).Orderly)
    (hsettings : e'.settings = w.engine.settings) (hnow : w.engine.now.micros ≤ e'.now.micros)
    (hrenew : e'.CanRenew) (hnext : w.engine.nextSession ≤ e'.nextSession)
    (hstore : ∀ id s, e'.store.get? id = some s → w.engine.store.get? id = some s) :
    (⟨e', w.tasks, published⟩ : Service).Recorded L' trail' sent where
  trails := htrails
  orderly := horderly
  canRenew := hrenew
  inOrder := fun id s hget => by
    rw [hsettings]
    exact (h.inOrder id s (hstore id s hget)).mono hnow
  prepared := fun i t ht => by
    have hprepared := h.prepared i t ht
    obtain ⟨v, q⟩ := t
    cases q with
    | settling c n s r k =>
        refine ⟨?_, hprepared.2⟩
        rw [hsettings]
        exact hprepared.1.mono hnow
    | _ => trivial
  issued := fun id hne => (h.issued id hne).mono hnext
  unsent := h.unsent
  entered := h.entered
  nodup := h.nodup
  accounts := fun id s hget => h.accounts id s (hstore id s hget)

theorem begin (h : w.Recorded L trail sent) (call : Call) :
    (w.begin call).Recorded L trail sent where
  trails := h.trails.begin call
  orderly := h.orderly.begin call
  canRenew := h.canRenew
  inOrder := h.inOrder
  prepared := fun i t ht => by
    rcases begin_cases ht with ht | ⟨-, rfl⟩
    · exact h.prepared i t ht
    · trivial
  issued := h.issued
  unsent := fun i t s ht hmade => by
    rcases begin_cases ht with ht | ⟨-, rfl⟩
    · exact h.unsent i t s ht hmade
    · cases hmade
  entered := fun id x hx => by
    obtain ⟨t, ht, hentered⟩ := h.entered id x hx
    obtain ⟨hi, -⟩ := List.getElem?_eq_some_iff.1 ht
    exact ⟨t, (List.getElem?_append_left hi).trans ht, hentered⟩
  nodup := h.nodup
  accounts := fun id s hget => by
    rcases h.accounts id s hget with ⟨hsame, hnobody⟩ | ⟨i, t, text, ht, hrec, hlast⟩
    · refine Or.inl ⟨hsame, fun i t text ht => ?_⟩
      rcases begin_cases ht with ht | ⟨-, rfl⟩
      · exact hnobody i t text ht
      · exact nofun
    · obtain ⟨hi, -⟩ := List.getElem?_eq_some_iff.1 ht
      exact Or.inr ⟨i, t, text, (List.getElem?_append_left hi).trans ht, hrec, hlast⟩

theorem make (h : w.Recorded L trail sent) {m : Move} (hm : m.GoesOnward w.engine) :
    ∃ L' trail', (w.make m).Recorded L' trail' fun id => sent id ++
      noted (fun i t e => (t.phase.admits id e).map (Prod.mk i)) w m := by
  obtain ⟨L', -, hnext, htrails⟩ := h.trails.make m
  have horderly := h.orderly.make m
  cases m with
  | turnClock now =>
      simp only [noted, List.append_nil] at htrails ⊢
      exact ⟨L', _, h.of_engine htrails horderly rfl hm.1 hm.2 hnext fun id s hget => hget⟩
  | publish f =>
      simp only [noted, List.append_nil] at htrails ⊢
      obtain ⟨e₁, registry, halike, -, hstart⟩ := start_publish f w.engine
      have hsame : (w.make (.publish f)).engine = { e₁ with registry } := hstart
      have hsettings : (w.make (.publish f)).engine.settings = w.engine.settings := by
        rw [hsame]
        exact halike.service.settings
      have hnow : (w.make (.publish f)).engine.now = w.engine.now := by
        rw [hsame]
        exact halike.service.now
      refine ⟨L', _, h.of_engine htrails horderly hsettings (Nat.le_of_eq (by rw [← hnow]; rfl)) ?_
        hnext fun id s hget => ?_⟩
      · have hcan := h.canRenew
        rwa [Engine.CanRenew, ← hsettings, ← hnow] at hcan
      · have hstore : (w.make (.publish f)).engine.store = w.engine.store :=
          store_publish f w.engine
        exact hstore ▸ hget
  | drop retention now =>
      simp only [noted, List.append_nil] at htrails ⊢
      refine ⟨L', _, h.of_engine htrails horderly rfl (Nat.le_refl _) h.canRenew hnext
        fun id s hget => ?_⟩
      have hkept := (w.engine.store.get?_dropStale retention now id).symm.trans hget
      exact (Option.filter_eq_some_iff.1 hkept).1
  | begin call =>
      simp only [noted, List.append_nil]
      exact ⟨L, trail, h.begin call⟩
  | proceed i => exact h.proceed i

/-- Runs in which the clock goes on keep the records. -/
theorem after (h : w.Recorded L trail sent) {ms : List Move} (hms : w.GoesOnward ms) :
    ∃ L' trail', (w.after ms).Recorded L' trail' fun id => sent id ++ w.admissions id ms := by
  induction ms generalizing w L trail sent with
  | nil =>
      refine ⟨L, trail, ?_⟩
      simp only [Service.admissions, log, List.append_nil]
      exact h
  | cons m ms ih =>
      obtain ⟨L₁, trail₁, h₁⟩ := h.make hms.1
      obtain ⟨L', trail', h'⟩ := ih h₁ hms.2
      refine ⟨L', trail', ?_⟩
      simp only [Service.admissions, log, ← List.append_assoc]
      exact h'

end Recorded

theorem recorded_fresh (settings : Settings) (sink : Option Sink) (executor : Option Executor)
    (now : Instant) (h : (Engine.fresh settings sink executor now).CanRenew) :
    (fresh settings sink executor now).Recorded ⟨fun _ => .blank, fun _ => ∅⟩ (fun _ => [])
      fun _ => [] where
  trails := trails_fresh settings sink executor now fun _ => .blank
  orderly := orderly_fresh settings sink executor now
  canRenew := h
  inOrder := fun _ _ hget => by cases hget
  prepared := fun _ _ ht => by cases ht
  issued := fun _ hne => absurd rfl hne
  unsent := fun _ _ _ ht => by cases ht
  entered := fun _ _ hx => by cases hx
  nodup := fun _ => List.nodup_nil
  accounts := fun _ _ hget => by cases hget

/-- **Records.**  As long as the clock does not go back and times of expiry can be
written, the record of every stored session is in order, whatever comes of the turns.
Its inputs are the ones that were admitted because they found the session live, each
brought by another operation and recorded once, and no others; the last of them may
still be about to be recorded by the operation that has brought it. -/
theorem records_kept (settings : Settings) (sink : Option Sink) (executor : Option Executor)
    (now : Instant) (ms : List Move)
    (hnow : (now.afterSeconds? settings.sessionTimeout).isSome = true)
    (hms : (fresh settings sink executor now).GoesOnward ms) (id : String) (s : Session)
    (hget : ((fresh settings sink executor now).after ms).engine.store.get? id = some s) :
    s.InOrder settings.sessionTimeout ((fresh settings sink executor now).after ms).engine.now ∧
      (((fresh settings sink executor now).admissions id ms).map Prod.fst).Nodup ∧
      ((fresh settings sink executor now).after ms).Accounts id s
        (((fresh settings sink executor now).admissions id ms).map Prod.snd) := by
  obtain ⟨L, trail, h⟩ := (recorded_fresh settings sink executor now hnow).after hms
  have hsettings := (orderly_fresh settings sink executor now).settings_after ms
  have horder := h.inOrder id s hget
  rw [hsettings] at horder
  exact ⟨horder, h.nodup id, h.accounts id s hget⟩

/-- A session is started, and an input is sent to it later. -/
def answering (later : Instant) : List Move :=
  [.publish .greeting, .begin (.create ⟨"greeting", "555", "*1#"⟩), .proceed 0, .proceed 0,
    .proceed 0, .proceed 0, .proceed 0, .proceed 0, .turnClock later,
    .begin (.input (sessionId 1) "Ada"), .proceed 1, .proceed 1, .proceed 1]

/-- The input is recorded, and the session expires half an hour after that. -/
theorem records_kept_answering :
    ∃ s, ((fresh .standard none none ⟨0, by decide⟩).after
        (answering ⟨1000000, by decide⟩)).engine.store.get? (sessionId 1) = some s ∧
      s.InOrder 1800 ⟨1000000, by decide⟩ ∧ s.texts = ["Ada"] := by
  have hstored : (((fresh .standard none none ⟨0, by decide⟩).after
      (answering ⟨1000000, by decide⟩)).engine.store.get? (sessionId 1)).any
        (fun s => decide (s.texts = ["Ada"])) = true := by decide +kernel
  obtain ⟨s, hget, hs⟩ := (Option.any_eq_true _ _).1 hstored
  have hkept := records_kept .standard none none ⟨0, by decide⟩ (answering ⟨1000000, by decide⟩)
    (by decide) (by decide +kernel) _ s hget
  exact ⟨s, hget, hkept.1, of_decide_eq_true hs⟩

end Service

end UssdFlows
