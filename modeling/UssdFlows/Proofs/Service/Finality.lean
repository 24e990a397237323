import UssdFlows.Proofs.Engine.Sinks
import UssdFlows.Proofs.Engine.Staleness
import UssdFlows.Proofs.Service.Deeds
import UssdFlows.Proofs.Service.Trails

/-!
# Sessions that are over

A session that is completed, terminated or expired is *retired*
(`Service.Retired`): no operation that goes on changes it, tells of it or has the
executor asked for it (`Engine.Mute`).  It stays as it is until a sweep drops it,
and then it is gone for good.

This is so because every deed is about a session that is active, but for the storing
of a new one, and the id of that is one that no stored session has had.  An active
session on the other hand is never dropped
(`Service.finality`).
-/

namespace UssdFlows

open EngineM

variable {e e' e₁ : Engine} {v : Visitor} {id : String} {s : Session} {about : Option String}
  {made : Option Session}

/-! ## What is not about a session -/

namespace Engine

/-- Nothing is told about a session, and nothing asked for it. -/
structure Mute (id : String) (e e' : Engine) : Prop where
  told : ∃ es, e.Tells es e' ∧ ∀ event ∈ es, event.sessionId ≠ id
  asked : ∃ rs, e'.requests = e.requests ++ rs ∧ ∀ r ∈ rs, r.session.id ≠ id

theorem mute_of_same (hsink : e'.sink = e.sink) (hrequests : e'.requests = e.requests) :
    e.Mute id e' where
  told := ⟨[], tells_nil hsink, fun _ hmem => absurd hmem List.not_mem_nil⟩
  asked := ⟨[], by simp [hrequests], fun _ hmem => absurd hmem List.not_mem_nil⟩

theorem Calm.mute (h : e.Calm e') : e.Mute id e' := mute_of_same h.silent.sink h.alike.requests

theorem Mute.trans (h : e.Mute id e₁) (h' : e₁.Mute id e') : e.Mute id e' := by
  obtain ⟨es, htold, hes⟩ := h.told
  obtain ⟨es', htold', hes'⟩ := h'.told
  obtain ⟨rs, hasked, hrs⟩ := h.asked
  obtain ⟨rs', hasked', hrs'⟩ := h'.asked
  refine ⟨⟨es ++ es', htold.trans htold', fun event hmem => ?_⟩,
    ⟨rs ++ rs', by rw [hasked', hasked, List.append_assoc], fun r hmem => ?_⟩⟩
  · exact (List.mem_append.1 hmem).elim (hes event) (hes' event)
  · exact (List.mem_append.1 hmem).elim (hrs r) (hrs' r)

theorem mute_announce (h : s.id ≠ id) (type : EventType) (node : Option String)
    (data : List (String × Value)) : e.Mute id (e.announce type s node data) where
  told := ⟨[.ofSession type s node data e.now], rfl, fun event hmem => by
    rw [List.mem_singleton.1 hmem]
    exact h⟩
  asked := ⟨[], (List.append_nil _).symm, fun _ hmem => absurd hmem List.not_mem_nil⟩

theorem mute_keep (e : Engine) (id : String) (s : Session) : e.Mute id (e.keep s) :=
  mute_of_same rfl rfl

theorem mute_requested {n : Node} (h : s.id ≠ id) : e.Mute id (e.requested n s) := by
  have htold : e.Mute id (e.announce .actionInitiated s (some n.id)
    [("action", .text n.kind.text)]) := mute_announce h _ _ _
  unfold requested
  split
  · refine ⟨htold.told, ⟨[⟨n, s⟩], rfl, fun r hmem => ?_⟩⟩
    rw [List.mem_singleton.1 hmem]
    exact h
  · exact htold

/-- A deed about one session is not about another. -/
theorem Deed.mute (h : e.Deed made about e') (hne : about ≠ some id) : e.Mute id e' := by
  have hid : ∀ {j : String} {s : Session}, e.store.get? j = some s → some j ≠ some id →
      s.id ≠ id := by
    intro j s hget hj hs
    exact hj (congrArg some ((KeyedList.key_of_find? hget).symm.trans hs))
  have hended : ∀ {j : String} {s s' : Session} {registry : Registry} {c : LifeEvent}
      {type : EventType} {data : List (String × Value)}, e.store.get? j = some s →
      some j ≠ some id → s'.id = s.id → e.Mute id (((({ e.keep s' with registry } :
        Engine).tally .activeSessions (-1)).tally (.sessions c) 1).announce type s' none data) := by
    intro j s s' registry c type data hget hj hs'
    have hkept : e.Mute id ((({ e.keep s' with registry } : Engine).tally .activeSessions
      (-1)).tally (.sessions c) 1) := mute_of_same rfl rfl
    exact hkept.trans (mute_announce (hs' ▸ hid hget hj) _ _ _)
  cases h with
  | rests => exact (Calm.refl e).mute
  | numbers => exact mute_of_same rfl rfl
  | @opens s hmade hnew ha =>
      have hstored : e.Mute id (((e.keep s).tally .activeSessions 1).tally (.sessions .started) 1) :=
        mute_of_same rfl rfl
      exact hstored.trans (mute_announce (fun hs => hne (congrArg some hs)) _ _ _)
  | @receives j s s' input hget ha hr =>
      obtain ⟨expiry, -, rfl⟩ := Session.received?_eq_some hr
      have hkept := e.mute_keep id ((s.record input e.now).expiringAt expiry)
      exact hkept.trans (mute_announce (s := (s.record input e.now).expiringAt expiry)
        (show s.id ≠ id from hid hget hne) _ _ _)
  | overruns hget ha hr => exact e.mute_keep id _
  | asks hget ha => exact mute_requested (hid hget hne)
  | @moves j s n o hget ha =>
      have hkept : e.Mute id ((e.keep (s.movedTo n e.now)).tally (.visits n.kind) 1) :=
        mute_of_same rfl rfl
      have htold := hkept.trans (mute_announce (s := s.movedTo n e.now)
        (show s.id ≠ id from hid hget hne) .nodeVisited none [("node_type", .text n.kind.text)])
      exact htold.trans (mute_keep _ id _)
  | finishes hget ha => exact hended hget hne rfl
  | complains hget ha => exact mute_announce (hid hget hne) _ _ _
  | lapses hget ha hx => exact hended hget hne rfl
  | terminates hget ha => exact hended hget hne rfl

theorem Does.mute (h : e.Does made about e') (hne : about ≠ some id) : e.Mute id e' := by
  obtain ⟨e₁, hdeed, hcalm⟩ := h
  exact (hdeed.mute hne).trans hcalm.mute

/-- No deed but the storing of a new session is about one that is not active. -/
theorem Does.of_over (h : e.Does none (some id) e')
    (hover : ∀ s, e.store.get? id = some s → s.isActive = false) :
    e.Mute id e' ∧ e'.store.get? id = e.store.get? id := by
  obtain ⟨e₁, hdeed, hcalm⟩ := h
  have hidle : e.Mute id e₁ ∧ e₁.store = e.store := by
    have hno : ∀ {s : Session} {P : Prop}, e.store.get? id = some s → s.isActive = true → P := by
      intro s P hget ha
      rw [hover s hget] at ha
      cases ha
    cases hdeed with
    | rests => exact ⟨(Calm.refl e).mute, rfl⟩
    | numbers => exact ⟨mute_of_same rfl rfl, rfl⟩
    | opens hmade hnew ha => cases hmade
    | receives hget ha hr => exact hno hget ha
    | overruns hget ha hr => exact hno hget ha
    | asks hget ha => exact hno hget ha
    | moves hget ha => exact hno hget ha
    | finishes hget ha => exact hno hget ha
    | complains hget ha => exact hno hget ha
    | lapses hget ha hx => exact hno hget ha
    | terminates hget ha => exact hno hget ha
  rw [hcalm.alike.store, hidle.2]
  exact ⟨hidle.1.trans hcalm.mute, rfl⟩

/-- Nobody stores a session but the one that was made for it. -/
theorem Does.of_missing (h : e.Does made (some id) e') (hnone : e.store.get? id = none)
    (hget : e'.store.get? id = some s) : made = some s := by
  obtain ⟨e₁, hdeed, hcalm⟩ := h
  rw [hcalm.alike.store] at hget
  have hno : ∀ {s : Session} {P : Prop}, e.store.get? id = some s → P := by
    intro s P hget'
    cases hnone.symm.trans hget'
  cases hdeed with
  | rests => exact hno hget
  | numbers => exact hno hget
  | opens hmade hnew ha =>
      rw [get?_opened, if_pos rfl] at hget
      cases hget
      exact hmade
  | receives hget' => exact hno hget'
  | overruns hget' => exact hno hget'
  | asks hget' => exact hno hget'
  | moves hget' => exact hno hget'
  | finishes hget' => exact hno hget'
  | complains hget' => exact hno hget'
  | lapses hget' => exact hno hget'
  | terminates hget' => exact hno hget'

/-- What is stored stays stored. -/
theorem Deed.stored (h : e.Deed made about e') (hget : e.store.get? id = some s) :
    ∃ s', e'.store.get? id = some s' := by
  have hkeep : ∀ s' : Session, ∃ s'', (e.keep s').store.get? id = some s'' := by
    intro s'
    rw [get?_keep]
    split
    · exact ⟨s', rfl⟩
    · exact ⟨s, hget⟩
  cases h with
  | asks =>
      rw [store_requested]
      exact ⟨s, hget⟩
  | moves =>
      rw [store_moved]
      exact hkeep _
  | rests => exact ⟨s, hget⟩
  | numbers => exact ⟨s, hget⟩
  | complains => exact ⟨s, hget⟩
  | opens => exact hkeep _
  | receives => exact hkeep _
  | overruns => exact hkeep _
  | finishes => exact hkeep _
  | lapses => exact hkeep _
  | terminates => exact hkeep _

/-- Ids that were issued stay issued. -/
theorem Does.nextSession_le (h : e.Does made about e') : e.nextSession ≤ e'.nextSession := by
  obtain ⟨e₁, hdeed, hcalm⟩ := h
  rw [hcalm.alike.service.nextSession]
  cases hdeed with
  | numbers => exact Nat.le_succ _
  | asks hget ha => rw [(e.sameService_requested _ _).nextSession]
  | _ => exact Nat.le_refl _

end Engine

namespace Service

variable {w : Service}

/-- Whether a move drops a session that is not active from the store. -/
def Move.drops (s : Session) : Move → Bool
  | .drop retention now => SessionStore.isStale retention now s
  | _ => false

/-- What is dropped has been idle for longer than it is retained. -/
theorem Move.idle_of_drops {s : Session} {m : Move} (h : m.drops s = true) :
    ∃ retention now, m = .drop retention now ∧
      retention * 1000000 < now.since s.lastActivityAt := by
  cases m with
  | drop retention now => exact ⟨retention, now, rfl, (SessionStore.idle_of_isStale h).2⟩
  | _ => exact absurd h Bool.false_ne_true

/-- A session that nothing is held against is kept. -/
theorem filter_true (o : Option Session) : o.filter (fun _ => true) = o := by
  cases o <;> rfl

/-! ## Retired sessions -/

/-- A session was stored and is not active any more, or gone, and nobody is about to
store one with its id. -/
structure Retired (id : String) (w : Service) : Prop where
  orderly : w.Orderly
  issued : IsIssued w.engine.nextSession id
  retired : ∀ s, w.engine.store.get? id = some s → s.isActive = false
  unopened : ∀ (i : Nat) (t : Task) (c : Caller) (n : Nat) (s : Session) (r : Turn) (k : Nat),
    w.tasks[i]? = some t → t.phase = .settling c n s r k → s.id ≠ id

namespace Retired

/-- An operation that goes on has no part in a session that is over. -/
theorem goes (h : w.Retired id) {i : Nat} {t : Task} {p : Phase} (ht : w.tasks[i]? = some t)
    (hg : t.phase.Goes t.visitor w.engine p e') :
    w.engine.Mute id e' ∧ e'.store.get? id = w.engine.store.get? id := by
  have hdoes := h.orderly.does ht hg
  by_cases hid : t.phase.subject? = some id
  · have hmade : t.phase.made? = none := by
      have hunopened := h.unopened i t
      obtain ⟨v, q⟩ := t
      cases q with
      | settling c n s r k => exact absurd (Option.some.inj hid) (hunopened c n s r k ht rfl)
      | _ => rfl
    rw [hid, hmade] at hdoes
    exact hdoes.of_over h.retired
  · exact ⟨hdoes.mute hid, hdoes.others hid⟩

theorem proceed (h : w.Retired id) (i : Nat) :
    (w.proceed i).Retired id ∧ w.engine.Mute id (w.proceed i).engine ∧
      (w.proceed i).engine.store.get? id = w.engine.store.get? id := by
  have horderly := h.orderly.proceed i
  rcases proceed_cases w i with ⟨hsame, -⟩ | ⟨t, p, e', ht, -, -, hg, hgoes, -⟩
  · rw [hsame]
    exact ⟨h, (Engine.Calm.refl _).mute, rfl⟩
  · obtain ⟨hmute, hsame⟩ := h.goes ht hg
    rw [hgoes] at horderly ⊢
    refine ⟨⟨horderly, h.issued.mono (h.orderly.does ht hg).nextSession_le, fun s hget => ?_,
      fun j u c n s r k hu hphase => ?_⟩, hmute, hsame⟩
    · exact h.retired s (hsame.symm.trans hget)
    · rcases set_cases hu with ⟨-, rfl⟩ | ⟨-, hu⟩
      · -- the id of a session that is about to be stored was not issued before
        have hphase' : p = .settling c n s r k := hphase
        subst hphase'
        rw [hg.settling]
        exact h.issued.ne.symm
      · exact h.unopened j u c n s r k hu hphase

/-- A move leaves a session that is over as it is, or drops it. -/
theorem make (h : w.Retired id) (m : Move) :
    (w.make m).Retired id ∧ w.engine.Mute id (w.make m).engine ∧
      (w.make m).engine.store.get? id =
        (w.engine.store.get? id).filter fun s => !m.drops s := by
  have hsame := filter_true (w.engine.store.get? id)
  have horderly := h.orderly.make m
  cases m with
  | turnClock now =>
      exact ⟨⟨horderly, h.issued, h.retired, h.unopened⟩, Engine.mute_of_same rfl rfl, hsame.symm⟩
  | publish f =>
      obtain ⟨e₁, hcalm, hstart⟩ := publish_cases f w.engine
      have hpublished : ∃ registry, (w.make (.publish f)).engine = { e₁ with registry } :=
        hstart.elim (fun hstart => ⟨e₁.registry, hstart⟩) fun hstart => ⟨_, hstart⟩
      obtain ⟨registry, hmade⟩ := hpublished
      rw [hmade]
      have hstore : e₁.store = w.engine.store := hcalm.alike.store
      have hnext : e₁.nextSession = w.engine.nextSession := hcalm.alike.service.nextSession
      refine ⟨⟨horderly, ?_, fun s hget => ?_, h.unopened⟩, ?_, ?_⟩
      · rw [hmade]
        exact hnext ▸ h.issued
      · rw [hmade] at hget
        exact h.retired s (hstore ▸ hget)
      · exact hcalm.mute.trans (Engine.mute_of_same rfl rfl)
      · exact (congrArg (·.get? id) hstore).trans hsame.symm
  | drop retention now =>
      have hstore := w.engine.store.get?_dropStale retention now id
      refine ⟨⟨horderly, h.issued, fun s hget => ?_, h.unopened⟩, Engine.mute_of_same rfl rfl,
        hstore⟩
      have hget' := hstore.symm.trans hget
      exact h.retired s (Option.filter_eq_some_iff.1 hget').1
  | begin call =>
      refine ⟨⟨horderly, h.issued, h.retired, fun i t c n s r k ht hphase => ?_⟩,
        (Engine.Calm.refl _).mute, hsame.symm⟩
      rcases begin_cases ht with ht | ⟨-, rfl⟩
      · exact h.unopened i t c n s r k ht hphase
      · cases hphase
  | proceed i =>
      obtain ⟨hretired, hmute, hstore⟩ := h.proceed i
      exact ⟨hretired, hmute, hstore.trans hsame.symm⟩

/-- Runs leave a session that is over as it is, or drop it. -/
theorem after (h : w.Retired id) (ms : List Move) :
    w.engine.Mute id (w.after ms).engine ∧ (w.after ms).engine.store.get? id =
      (w.engine.store.get? id).filter fun s => !ms.any (Move.drops s) := by
  induction ms generalizing w with
  | nil => exact ⟨(Engine.Calm.refl _).mute, (filter_true _).symm⟩
  | cons m ms ih =>
      obtain ⟨hretired, hmute, hstore⟩ := h.make m
      obtain ⟨hmute', hstore'⟩ := ih hretired
      refine ⟨hmute.trans hmute', hstore'.trans ?_⟩
      rw [hstore, Option.filter_filter]
      simp only [List.any_cons, Bool.not_or]

end Retired

/-- Where trails are kept, a stored session that is not active is retired. -/
theorem Trails.retired {L : Ledger} {trail : String → List String} (h : w.Trails L trail)
    (horderly : w.Orderly) (hget : w.engine.store.get? id = some s) (hover : s.isActive = false) :
    w.Retired id where
  orderly := horderly
  issued := (h.sound.engine.stored hget).2.1
  retired := fun s' hget' => by
    cases hget.symm.trans hget'
    exact hover
  unopened := fun i t c n s' r k ht hphase hid => by
    have hmissing := h.get?_settling ht hphase
    rw [hid, hget] at hmissing
    cases hmissing

/-- An active session is stored after every move. -/
theorem Orderly.stays_stored (h : w.Orderly) (hget : w.engine.store.get? id = some s)
    (ha : s.isActive = true) (m : Move) :
    ∃ s', (w.make m).engine.store.get? id = some s' := by
  cases m with
  | turnClock now => exact ⟨s, hget⟩
  | publish f => exact ⟨s, (congrArg (·.get? id) (store_publish f w.engine)).trans hget⟩
  | drop retention now => exact ⟨s, SessionStore.get?_dropStale_of_active hget ha⟩
  | begin call => exact ⟨s, hget⟩
  | proceed i =>
      show ∃ s', (w.proceed i).engine.store.get? id = some s'
      rcases proceed_cases w i with ⟨hsame, -⟩ | ⟨t, p, e', ht, -, -, hg, hgoes, -⟩
      · rw [hsame]
        exact ⟨s, hget⟩
      · rw [hgoes]
        obtain ⟨e₁, hdeed, hcalm⟩ := h.does ht hg
        rw [hcalm.alike.store]
        exact hdeed.stored hget

/-- **Finality.**  A session that is stored and not active stays as it is in every
field, whatever is done later; nothing is told about it any more and no action is
asked for it.  Only a sweep drops it, which finds it stale, and then it stays away; at
the time of that sweep it has been idle for longer than sessions are retained.  An active
session is dropped by no move. -/
theorem finality (settings : Settings) (sink : Option Sink) (executor : Option Executor)
    (now : Instant) (before : List Move) {id : String} {s : Session}
    (hget : ((fresh settings sink executor now).after before).engine.store.get? id = some s) :
    (s.isActive = false → ∀ later : List Move,
      ((fresh settings sink executor now).after (before ++ later)).engine.store.get? id =
          (if later.any (Move.drops s) then none else some s) ∧
        ((fresh settings sink executor now).after before).engine.Mute id
          ((fresh settings sink executor now).after (before ++ later)).engine) ∧
      (∀ m : Move, m.drops s = true → ∃ retention t, m = .drop retention t ∧
        retention * 1000000 < t.since s.lastActivityAt) ∧
      (s.isActive = true → ∀ m : Move, ∃ s',
        ((fresh settings sink executor now).after (before ++ [m])).engine.store.get? id =
          some s') := by
  have horderly := (orderly_fresh settings sink executor now).after before
  refine ⟨fun hover later => ?_, fun m => Move.idle_of_drops, fun ha m => ?_⟩
  · obtain ⟨L, -, -, h⟩ := (trails_fresh settings sink executor now fun _ => .blank).after before
    obtain ⟨hmute, hstore⟩ := (h.retired horderly hget hover).after later
    rw [after_append]
    refine ⟨?_, hmute⟩
    rw [hstore, hget, Option.filter_some]
    cases later.any (Move.drops s) <;> rfl
  · rw [after_append]
    exact horderly.stays_stored hget ha m

/-- A session is started and ended. -/
def ended : List Move :=
  [.publish .greeting, .begin (.create ⟨"greeting", "555", "*1#"⟩), .proceed 0, .proceed 0,
    .proceed 0, .proceed 0, .proceed 0, .proceed 0,
    .begin (.terminate (sessionId 1) "changed my mind"), .proceed 1, .proceed 1]

/-- An input does not change the session any more, and a sweep a second later drops
it. -/
theorem finality_ended :
    ∃ s, ((fresh .standard (some (.memory none [])) none ⟨0, by decide⟩).after
          ended).engine.store.get? (sessionId 1) = some s ∧ s.isActive = false ∧
      ((fresh .standard (some (.memory none [])) none ⟨0, by decide⟩).after (ended ++
        [.begin (.input (sessionId 1) "Ada"), .proceed 2, .proceed 2])).engine.store.get?
          (sessionId 1) = some s ∧
      ((fresh .standard (some (.memory none [])) none ⟨0, by decide⟩).after (ended ++
        [.drop 0 ⟨1000000, by decide⟩])).engine.store.get? (sessionId 1) = none := by
  have hstored : (((fresh .standard (some (.memory none [])) none ⟨0, by decide⟩).after
      ended).engine.store.get? (sessionId 1)).any (fun s => !s.isActive &&
        Move.drops s (.drop 0 ⟨1000000, by decide⟩)) = true := by decide +kernel
  obtain ⟨s, hget, hs⟩ := (Option.any_eq_true _ _).1 hstored
  rw [Bool.and_eq_true, Bool.not_eq_true'] at hs
  have hfinal := (finality .standard (some (.memory none [])) none ⟨0, by decide⟩ ended hget).1 hs.1
  refine ⟨s, hget, hs.1, (hfinal _).1, ?_⟩
  rw [(hfinal _).1, List.any_cons, hs.2]
  rfl

end Service

end UssdFlows
