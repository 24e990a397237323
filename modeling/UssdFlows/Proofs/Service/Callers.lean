import UssdFlows.Proofs.Engine.Tidy
import UssdFlows.Proofs.Engine.Waning
import UssdFlows.Proofs.Flow.Verdict
import UssdFlows.Proofs.Service.Sections

/-!
# One live session for each caller

A caller has one live session at most, whether operations run one by one while the
clock goes on, or side by side while it stands still (`Service.Timely.one_live`).

Two things make this hold.  Whoever is about to store a session has found no live
one inside the section of the caller, and keeps others out of it until the session
is stored (`Phase.Minds`).  And whoever is about to record an input has found its
session live: as long as the clock stands still it is live, and when the clock goes
on there is nobody else to store another one (`Pace.Expects`).
-/

namespace UssdFlows

open EngineM

variable {e e' : Engine} {v : Visitor} {id : String} {s : Session} {c : Caller}

/-! ## What operations rely on -/

namespace Phase

variable {p p' : Phase}

/-- A caller whose session is about to be stored has no live one. -/
def Minds (e : Engine) : Phase → Prop
  | opening c f _ => f.id = c.flowId
  | settling c _ s t _ => s.caller = c ∧ t.input = none ∧ ¬ e.HasLive c
  | _ => True

/-- The session whose input is about to be recorded. -/
def recording? : Phase → Option String
  | playing _ _ _ .recordInput t => some t.sessionId
  | _ => none

theorem eq_of_recording? (h : p.recording? = some id) :
    ∃ purpose lock left t, p = .playing purpose lock left .recordInput t ∧ t.sessionId = id := by
  cases p with
  | playing purpose lock left σ t =>
      cases σ with
      | recordInput => exact ⟨purpose, lock, left, t, rfl, Option.some.inj h⟩
      | _ => cases h
  | _ => cases h

theorem recording?_playing {purpose : Purpose} {lock left : Nat} {σ : Stage} {t : Turn}
    (h : σ ≠ .recordInput) : (playing purpose lock left σ t).recording? = none := by
  cases σ with
  | recordInput => exact absurd rfl h
  | _ => rfl

/-- An input is recorded inside the section of its session. -/
theorem mem_inside_of_recording? (h : p.recording? = some id) : id ∈ p.inside := by
  obtain ⟨purpose, lock, left, t, rfl, rfl⟩ := eq_of_recording? h
  rw [inside, List.map_append, List.mem_append]
  exact Or.inr (List.mem_singleton_self _)

/-- The section of the session that an operation serves is one that it uses. -/
theorem mem_uses_of_served? (h : p.served? = some id) : id ∈ p.uses.map Prod.fst := by
  have hturn : ∀ (purpose : Purpose) (lock : Nat),
      id ∈ (purpose.uses ++ [(id, lock)]).map Prod.fst := by
    intro purpose lock
    rw [List.map_append, List.mem_append]
    exact Or.inr (List.mem_singleton_self _)
  cases p with
  | entering call i lock =>
      cases h
      exact List.mem_singleton_self _
  | playing purpose lock left σ t =>
      cases h
      exact hturn purpose lock
  | acting purpose lock left pending t =>
      cases h
      exact hturn purpose lock
  | _ => cases h

/-- An operation relies on nothing outside the sections that it is in. -/
theorem Minds.spared (h : p.Minds e)
    (hlive : ∀ c : Caller, c.key ∈ p.inside → e'.HasLive c → e.HasLive c) : p.Minds e' := by
  cases p with
  | opening c f lock => exact h
  | settling c callerLock s t lock =>
      exact ⟨h.1, h.2.1, fun hc => h.2.2 (hlive c (List.mem_singleton_self _) hc)⟩
  | _ => trivial

/-! ## What becomes of it -/

/-- Only an input that is about to be recorded renews its session. -/
theorem recording?_of_may (h : p.served? = some id) (hmay : p.May .renew) :
    p.recording? = some id := by
  cases p with
  | playing purpose lock left σ t =>
      cases h
      cases Stage.May.eq_recordInput hmay
      rfl
  | entering call i lock => exact absurd hmay not_isFinish_renew
  | _ => exact hmay.elim

/-- An operation that serves no session changes none, unless it stores a new one. -/
theorem Goes.stays_or_opens (hg : Goes v e p p' e') (h : p.Minds e) (hp : p.served? = none) :
    (e'.store = e.store ∧ e'.now = e.now) ∨
      ∃ callerLock s t lock, p = .settling s.caller callerLock s t lock ∧ e' = e.opened s := by
  cases hg with
  | unserved _ => exact Or.inl ⟨rfl, rfl⟩
  | calls _ => exact Or.inl ⟨rfl, rfl⟩
  | asks _ => exact Or.inl ⟨rfl, rfl⟩
  | opens hopen =>
      obtain ⟨-, rfl, -⟩ := openSession_opened hopen
      exact Or.inl ⟨rfl, rfl⟩
  | resumes hopen _ hc =>
      have hstore := hc.alike.store
      have hnow := hc.alike.service.now
      rcases openSession_cases hopen with rfl | rfl
      · exact Or.inl ⟨hstore, hnow⟩
      · exact Or.inl ⟨hstore, hnow⟩
  | @stores c callerLock s t lock _ hstore =>
      obtain ⟨rfl, -⟩ := h
      rcases start_storeSession s e with hok | herr
      · cases hstore.symm.trans hok
        exact Or.inr ⟨callerLock, s, t, lock, rfl, rfl⟩
      · cases hstore.symm.trans herr
  | @drops c callerLock s t lock err e₁ _ hstore hc =>
      rcases start_storeSession s e with hok | herr
      · cases hstore.symm.trans hok
      · cases hstore.symm.trans herr
        exact Or.inl ⟨hc.alike.store, hc.alike.service.now⟩
  | continues hplays _ => cases hplays.served?_eq.symm.trans hp
  | concludes hplays _ _ _ => cases hplays.served?_eq.symm.trans hp
  | _ => cases hp

/-- What an operation relies on when it has gone on. -/
theorem Goes.minds (hg : Goes v e p p' e') (h : p.Minds e) : p'.Minds e' := by
  cases hg with
  | calls hget => exact (Registry.mem_of_get? hget).2
  | @opens c f lock s t e₁ hopen =>
      obtain ⟨hnone, rfl, expiry, n, rfl, -, rfl⟩ := openSession_opened hopen
      refine ⟨Session.caller_newlyOpened _ h _ _, rfl, fun hlive => ?_⟩
      exact Engine.not_hasLive_of_findLive? hnone ((Engine.wanes_of_store rfl rfl).hasLive hlive)
  | _ => trivial

/-- An input that is about to be recorded has been admitted just now. -/
theorem Goes.recording (hg : Goes v e p p' e') (h : p.Minds e) (hp : p'.recording? = some id) :
    e' = e ∧ ∀ s, e.store.get? id = some s → s.isLive e.now = true := by
  cases hg with
  | @stores c callerLock s t lock _ _ =>
      have hentry : t.entry ≠ .recordInput := by
        rw [Turn.entry, h.2.1]
        split
        · rename_i hinput
          cases hinput
        · split <;> exact fun hσ => Stage.noConfusion hσ
      rw [recording?_playing hentry] at hp
      cases hp
  | admits hadmission =>
      obtain ⟨rfl, s, f, n, hget, hlive, -, -, rfl⟩ := admission_admitted hadmission
      cases hp
      refine ⟨rfl, fun s' hget' => ?_⟩
      cases hget.symm.trans hget'
      exact hlive
  | @continues _ purpose lock left σ t t' σ' _ _ hn =>
      have hnext : σ' ≠ .recordInput := fun hσ' => t'.next?_ne_recordInput σ (hσ' ▸ hn)
      rw [recording?_playing hnext] at hp
      cases hp
  | _ => cases hp

/-- No caller gets two live sessions. -/
theorem Goes.single (hg : Goes v e p p' e') (hs : e.Single) (h : p.Minds e)
    (hf : ∀ id, p.recording? = some id → e.Foremost id) : e'.Single := by
  cases hp : p.served? with
  | some id => exact (hg.touches hp).single hs fun hmay => hf id (recording?_of_may hp hmay)
  | none =>
      rcases hg.stays_or_opens h hp with ⟨hstore, hnow⟩ | ⟨callerLock, s, t, lock, rfl, rfl⟩
      · exact hs.of_wanes (Engine.wanes_of_store hstore hnow)
      · exact hs.opened h.2.2

/-- Operations that are inside other sections are spared, if an input that is about
to be recorded is one to a live session. -/
theorem Goes.apart (hg : Goes v e p p' e') (h : p.Minds e)
    (hlive : ∀ id, p.recording? = some id →
      ∀ s, e.store.get? id = some s → s.isLive e.now = true) :
    e'.now = e.now ∧
      (∀ c : Caller, c.key ∉ p.uses.map Prod.fst → e'.HasLive c → e.HasLive c) ∧
      ∀ id, id ∉ p.uses.map Prod.fst → e'.store.get? id = e.store.get? id := by
  cases hp : p.served? with
  | some id =>
      have htouches := hg.touches hp
      have hwanes := htouches.wanes fun hmay => hlive id (recording?_of_may hp hmay)
      refine ⟨htouches.service.now, fun c _ hc => hwanes.hasLive hc, fun j hj => ?_⟩
      refine htouches.others j ?_
      rintro rfl
      exact hj (mem_uses_of_served? hp)
  | none =>
      rcases hg.stays_or_opens h hp with ⟨hstore, hnow⟩ | ⟨callerLock, s, t, lock, rfl, rfl⟩
      · refine ⟨hnow, fun c _ hc => (Engine.wanes_of_store hstore hnow).hasLive hc, fun j _ => ?_⟩
        rw [hstore]
      · refine ⟨rfl, fun c hkey hc => ?_, fun j hj => ?_⟩
        · rcases Engine.hasLive_opened hc with hold | rfl
          · exact hold
          · exact absurd (List.mem_cons_self ..) hkey
        · rw [Engine.get?_opened, if_neg]
          rintro rfl
          exact hj (List.mem_cons_of_mem _ (List.mem_singleton_self _))

end Phase

/-! ## Whole operations -/

namespace Operation

/-- An operation does not turn the clock back. -/
def GoesOnward (now : Instant) : Operation → Prop
  | turnClock later => later.before now = false
  | _ => True

/-- Nothing comes back to life when the clock goes on. -/
theorem wanes_turnClock {now : Instant} (h : now.before e.now = false) :
    e.Wanes { e with now } := by
  intro id s hget hlive
  refine ⟨s, hget, ?_, rfl⟩
  simp only [Session.isLive, Session.isPastExpiry, Instant.before, Bool.and_eq_true,
    Bool.not_eq_true', decide_eq_false_iff_not] at hlive h ⊢
  exact ⟨hlive.1, by omega⟩

theorem single_perform (op : Operation) (h : e.Single) (hop : op.GoesOnward e.now) :
    (op.perform.start e).2.Single := by
  cases op with
  | turnClock now => exact h.of_wanes (wanes_turnClock hop)
  | publish f =>
      obtain ⟨e₁, registry, halike, -, hstart⟩ := start_publish f e
      rw [hstart]
      exact h.of_wanes (Engine.wanes_of_store halike.store halike.service.now)
  | create c => exact Engine.single_bind (h.createSession c) fun _ => waning_pure ()
  | input id text =>
      exact h.of_wanes ((waning_processInput id text).bind (fun _ => waning_pure ()) e)
  | terminate id reason =>
      exact h.of_wanes ((waning_terminateSession id reason).bind (fun _ => waning_pure ()) e)
  | expire id now =>
      exact h.of_wanes ((waning_expireSession id now).bind (fun _ => waning_pure ()) e)
  | sweep retention now =>
      exact h.of_wanes ((waning_sweep retention now).bind (fun _ => waning_pure ()) e)
  | drop retention now => exact h.of_wanes (e.wanes_dropStale retention now)

theorem idle_perform (op : Operation) (h : e.locks.Idle) : (op.perform.start e).2.locks.Idle := by
  have htidy : ∀ {α : Type} {x : EngineM α}, Tidy [] x →
      ((x >>= fun _ => pure ()).start e).2.locks.Idle := fun hx =>
    Locks.held_nil_iff.1
      ((hx.bind fun _ _ _ _ => (lockFree_pure ()).tidy) e (Locks.held_nil_iff.2 h))
  cases op with
  | turnClock now => exact h
  | publish f =>
      obtain ⟨e₁, registry, -, hlocks, hstart⟩ := start_publish f e
      rw [hstart]
      exact hlocks ▸ h
  | create c => exact htidy (tidy_createSession c)
  | input id text => exact htidy (tidy_processInput id text)
  | terminate id reason => exact htidy (tidy_terminateSession id reason)
  | expire id now => exact htidy (tidy_expireSession id now)
  | sweep retention now => exact htidy (tidy_sweep retention now)
  | drop retention now => exact h

end Operation

/-! ## Services in which callers have one live session -/

/-- How operations go on: one by one, each to its end, or side by side. -/
inductive Pace where
  | oneByOne
  | sideBySide
  deriving DecidableEq, Repr

/-- What is so of a session whose input is about to be recorded. -/
def Pace.Expects (e : Engine) (id : String) : Pace → Prop
  | oneByOne => e.Foremost id
  | sideBySide => ∀ s, e.store.get? id = some s → s.isLive e.now = true

theorem Pace.expects_of_live {pace : Pace} (h : e.Single)
    (hlive : ∀ s, e.store.get? id = some s → s.isLive e.now = true) : pace.Expects e id := by
  cases pace with
  | oneByOne => exact h.foremost hlive
  | sideBySide => exact hlive

theorem Pace.Expects.foremost {pace : Pace} (h : pace.Expects e id) (hs : e.Single) :
    e.Foremost id := by
  cases pace with
  | oneByOne => exact h
  | sideBySide => exact hs.foremost h

namespace Service

variable {w : Service} {pace pace' : Pace}

/-- All operations but one are over. -/
def IsAlone (w : Service) (i : Nat) : Prop :=
  ∀ (j : Nat) (u : Task), w.tasks[j]? = some u → j ≠ i → u.phase.isFinished = true

/-- No caller has two live sessions, and operations in progress rely on what is
so. -/
structure OneLive (pace : Pace) (w : Service) : Prop where
  inLine : w.InLine
  single : w.engine.Single
  minds : ∀ (i : Nat) (t : Task), w.tasks[i]? = some t → t.phase.Minds w.engine
  expects : ∀ (i : Nat) (t : Task) (id : String), w.tasks[i]? = some t →
    t.phase.recording? = some id → pace.Expects w.engine id
  alone : pace = .oneByOne → ∃ i, w.IsAlone i

namespace OneLive

/-- The pace may change while no operation is in progress. -/
theorem change (h : w.OneLive pace) (hq : w.IsQuiet) : w.OneLive pace' :=
  { h with
    expects := fun i t id ht hid => by
      obtain ⟨r, hr⟩ := hq.finished ht
      rw [hr] at hid
      cases hid
    alone := fun _ => ⟨0, fun j u hu _ => hq u (List.mem_of_getElem? hu)⟩ }

theorem begin (h : w.OneLive pace) (hp : pace = .oneByOne → w.IsQuiet) (call : Call) :
    (w.begin call).OneLive pace where
  inLine := h.inLine.begin call
  single := h.single
  minds := fun i t ht => by
    rcases begin_cases ht with ht | ⟨-, rfl⟩
    · exact h.minds i t ht
    · trivial
  expects := fun i t id ht hid => by
    rcases begin_cases ht with ht | ⟨-, rfl⟩
    · exact h.expects i t id ht hid
    · cases hid
  alone := fun hpace => by
    refine ⟨w.tasks.length, fun j u hu hj => ?_⟩
    rcases begin_cases hu with hu | ⟨rfl, -⟩
    · exact hp hpace u (List.mem_of_getElem? hu)
    · exact absurd rfl hj

/-- Operations in progress rely on the same as before when another one has gone on:
if all go on one by one there is none, and else they are in sections of their own. -/
theorem others (h : w.OneLive pace) {i j : Nat} {t u : Task} {p : Phase}
    (ht : w.tasks[i]? = some t) (hcan : t.phase.canStep t.visitor w.engine = true)
    (hg : t.phase.Goes t.visitor w.engine p e') (hu : w.tasks[j]? = some u) (hji : j ≠ i) :
    u.phase.Minds e' ∧ ∀ id, u.phase.recording? = some id → pace.Expects e' id := by
  cases pace with
  | oneByOne =>
      obtain ⟨k, hk⟩ := h.alone rfl
      have hunfinished := Phase.not_isFinished_of_canStep hcan
      have hik : i = k := by
        by_contra hik
        exact Bool.false_ne_true (hunfinished.symm.trans (hk i t ht hik))
      obtain ⟨r, hr⟩ := Phase.finished_of_isFinished (hk j u hu (hik ▸ hji))
      rw [hr]
      exact ⟨trivial, fun id hid => nomatch hid⟩
  | sideBySide =>
      obtain ⟨hnow, hlive, hstored⟩ :=
        hg.apart (h.minds i t ht) fun id hid => h.expects i t id ht hid
      have happart : ∀ {key}, key ∈ u.phase.inside → key ∉ t.phase.uses.map Prod.fst :=
        fun hin hkey => h.inLine.ne_of_inside ht hcan hu hji hkey hin
      refine ⟨(h.minds j u hu).spared fun c hc => hlive c (happart hc), fun id hid s hget => ?_⟩
      rw [hstored id (happart (Phase.mem_inside_of_recording? hid))] at hget
      rw [hnow]
      exact h.expects j u id hu hid s hget

theorem proceed (h : w.OneLive pace) (i : Nat) : (w.proceed i).OneLive pace := by
  rcases proceed_cases w i with ⟨hsame, -⟩ | ⟨t, p, e', ht, hcan, -, hg, hgoes, -⟩
  · rw [hsame]
    exact h
  · have hmt := h.minds i t ht
    have hsingle : e'.Single :=
      hg.single h.single hmt fun id hid => (h.expects i t id ht hid).foremost h.single
    rw [hgoes]
    refine ⟨h.inLine.set ht hcan hg, hsingle, fun j u hu => ?_, fun j u id hu hid => ?_,
      fun hpace => ?_⟩
    · rcases set_cases hu with ⟨-, rfl⟩ | ⟨hji, hu⟩
      · exact hg.minds hmt
      · exact (h.others ht hcan hg hu hji).1
    · rcases set_cases hu with ⟨-, rfl⟩ | ⟨hji, hu⟩
      · obtain ⟨rfl, hlive⟩ := hg.recording hmt hid
        exact Pace.expects_of_live h.single hlive
      · exact (h.others ht hcan hg hu hji).2 id hid
    · obtain ⟨k, hk⟩ := h.alone hpace
      refine ⟨k, fun j u hu hjk => ?_⟩
      rcases set_cases hu with ⟨rfl, rfl⟩ | ⟨-, hu⟩
      · -- an operation that is over does not go on
        have hunfinished := Phase.not_isFinished_of_canStep hcan
        exact absurd (hunfinished.symm.trans (hk j t ht hjk)) Bool.false_ne_true
      · exact hk j u hu hjk

/-- The clock goes on while one operation at most is in progress. -/
theorem turnClock (h : w.OneLive .oneByOne) {now : Instant}
    (hnow : now.before w.engine.now = false) :
    (w.perform (.turnClock now)).OneLive .oneByOne := by
  have hwanes : w.engine.Wanes { w.engine with now } := Operation.wanes_turnClock hnow
  exact
    { inLine := h.inLine.make (.turnClock now)
      single := h.single.of_wanes hwanes
      minds := fun i t ht => (h.minds i t ht).spared fun c _ hlive => hwanes.hasLive hlive
      expects := fun i t id ht hid =>
        Engine.Foremost.of_wanes (h.expects i t id ht hid) hwanes rfl
      alone := h.alone }

/-- A whole operation is performed while no other is in progress. -/
theorem perform (h : w.OneLive pace) (hq : w.IsQuiet) {op : Operation}
    (hop : op.GoesOnward w.engine.now) : (w.perform op).OneLive pace where
  inLine := IsQuiet.inLine hq h.inLine.visitors (op.idle_perform (h.inLine.idle hq))
  single := op.single_perform h.single hop
  minds := fun i t ht => by
    obtain ⟨r, hr⟩ := hq.finished ht
    rw [hr]
    trivial
  expects := fun i t id ht hid => by
    obtain ⟨r, hr⟩ := hq.finished ht
    rw [hr] at hid
    cases hid
  alone := h.alone

end OneLive

/-- The states of a service whose clock never goes back.  Whole operations are
performed while no other is in progress.  Otherwise operations go on one by one, the
clock going on while they do, or side by side while it stands still. -/
inductive Timely : Pace → Service → Prop where
  | fresh (settings : Settings) (sink : Option Sink) (executor : Option Executor) (now : Instant) :
      Timely .oneByOne (fresh settings sink executor now)
  | change {pace pace' : Pace} {w : Service} : Timely pace w → w.IsQuiet → Timely pace' w
  | perform {pace : Pace} {w : Service} {op : Operation} : Timely pace w → w.IsQuiet →
      op.GoesOnward w.engine.now → Timely pace (w.perform op)
  | turnClock {w : Service} {now : Instant} : Timely .oneByOne w →
      now.before w.engine.now = false → Timely .oneByOne (w.perform (.turnClock now))
  | begin {pace : Pace} {w : Service} (call : Call) : Timely pace w →
      (pace = .oneByOne → w.IsQuiet) → Timely pace (w.begin call)
  | proceed {pace : Pace} {w : Service} (i : Nat) : Timely pace w → Timely pace (w.proceed i)

namespace Timely

theorem oneLive (h : w.Timely pace) : w.OneLive pace := by
  induction h with
  | fresh settings sink executor now =>
      exact
        { inLine := inLine_fresh ..
          single := fun _ _ _ _ hget => absurd hget nofun
          minds := fun i t ht => absurd ht nofun
          expects := fun i t id ht => absurd ht nofun
          alone := fun _ => ⟨0, fun j u hu => absurd hu nofun⟩ }
  | change _ hq ih => exact ih.change hq
  | perform _ hq hop ih => exact ih.perform hq hop
  | turnClock _ hnow ih => exact ih.turnClock hnow
  | begin call _ hp ih => exact ih.begin hp call
  | proceed i _ ih => exact ih.proceed i

/-- **One live session.**  At no time has a caller two live sessions, and one who
has a live session of a flow that is served goes on with it as it is when he starts
a session: nothing is created or changed. -/
theorem one_live (h : w.Timely pace) (c : Caller) :
    (∀ id id' s s', w.engine.store.get? id = some s → w.engine.store.get? id' = some s' →
      s.isLive w.engine.now = true → s'.isLive w.engine.now = true → s.caller = c →
      s'.caller = c → id = id' ∧ s = s') ∧
    ∀ id s f, w.engine.store.get? id = some s → s.isLive w.engine.now = true → s.caller = c →
      w.engine.registry.get? c.flowId = some f →
      ∃ locks, (createSession c).start w.engine = (.ok s, { w.engine with locks }) := by
  have hsingle := h.oneLive.single
  refine ⟨fun id id' s s' hget hget' hlive hlive' hc hc' => ?_, ?_⟩
  · have hsame := hsingle id id' s s' hget hget' hlive hlive' (hc.trans hc'.symm)
    refine ⟨?_, hsame⟩
    rw [← KeyedList.key_of_find? hget, ← KeyedList.key_of_find? hget', hsame]
  · rintro id s f hget hlive rfl hf
    exact hsingle.start_createSession hf hget hlive

end Timely

/-- A caller has started a session, and a second later starts one again while an
input to the first is about to be recorded. -/
def dialling : Service :=
  [0, 1, 1].foldl proceed
    ((((((fresh .standard none none ⟨0, Instant.zero_inRange⟩).perform (.publish .greeting)).perform
      (.create ⟨"greeting", "555", "*1#"⟩)).perform (.turnClock ⟨1000000, by decide⟩)).begin
        (.create ⟨"greeting", "555", "*1#"⟩)).begin (.input (sessionId 1) "Ada"))

/-- He has one live session then, and it is the one that he gets. -/
theorem one_live_dialling :
    ∃ s locks, dialling.engine.store.get? (sessionId 1) = some s ∧
      (∀ id' s', dialling.engine.store.get? id' = some s' → s'.isLive dialling.engine.now = true →
        s'.caller = ⟨"greeting", "555", "*1#"⟩ → sessionId 1 = id' ∧ s = s') ∧
      (createSession ⟨"greeting", "555", "*1#"⟩).start dialling.engine =
        (.ok s, { dialling.engine with locks }) := by
  have htimely : dialling.Timely .sideBySide := by
    have hstart : (fresh .standard none none ⟨0, by decide⟩).Timely .oneByOne := .fresh ..
    have hpublished := hstart.perform (fun t ht => absurd ht List.not_mem_nil)
      (show (Operation.publish .greeting).GoesOnward _ from trivial)
    have hcreated := hpublished.perform (fun t ht => absurd ht List.not_mem_nil)
      (show (Operation.create ⟨"greeting", "555", "*1#"⟩).GoesOnward _ from trivial)
    have hlater : (Instant.mk 1000000 (by decide)).before
        (((fresh .standard none none ⟨0, by decide⟩).perform (.publish .greeting)).perform
          (.create ⟨"greeting", "555", "*1#"⟩)).engine.now = false := by decide +kernel
    have hquiet : Timely .sideBySide _ :=
      (hcreated.turnClock hlater).change fun t ht => absurd ht List.not_mem_nil
    have hbegun := (hquiet.begin (.create ⟨"greeting", "555", "*1#"⟩) nofun).begin
      (.input (sessionId 1) "Ada") nofun
    exact ((hbegun.proceed 0).proceed 1).proceed 1
  have hstored : (dialling.engine.store.get? (sessionId 1)).any (fun s =>
      s.isLive dialling.engine.now && decide (s.caller = ⟨"greeting", "555", "*1#"⟩)) = true := by
    decide +kernel
  have hserved : (dialling.engine.registry.get? "greeting").isSome = true := by decide +kernel
  obtain ⟨s, hget, hs⟩ := (Option.any_eq_true _ _).1 hstored
  rw [Bool.and_eq_true, decide_eq_true_eq] at hs
  obtain ⟨f, hf⟩ := Option.isSome_iff_exists.1 hserved
  obtain ⟨hsingle, hresumed⟩ := Timely.one_live htimely ⟨"greeting", "555", "*1#"⟩
  obtain ⟨locks, hstart⟩ := hresumed _ s f hget hs.1 hs.2 hf
  exact ⟨s, locks, hget, fun id' s' hget' hlive' hc' =>
    hsingle _ id' s s' hget hget' hs.1 hlive' hs.2 hc', hstart⟩

end Service

end UssdFlows
