import UssdFlows.Proofs.Engine.Confined
import UssdFlows.Proofs.Engine.Sinks
import UssdFlows.Proofs.Engine.Staleness

/-!
# What a sweep does

A session is *due* at some time if it is active and has been idle for too long by
then (`Session.isDue`).  A sweep lists the sessions that are due, takes one after
another out of service, each inside its own section, and drops what is stale at the
end.

Nothing else happens in between, so each of the sessions is still due when its turn
comes (`start_expireSession_of_due`), and the loop comes to `Engine.lapsedAll`
(`start_expireEach`): the sessions expire where they stand, and one event is told of
each.  A session that expires is stamped with the time of the sweep and is therefore
not stale yet, unless the retention is negative (`Session.isStale_sweptAt`).  So the
sweep drops exactly what was stale before (`sweep_once`), and the next sweep of the
same time finds nothing to do.
-/

namespace UssdFlows

open EngineM

variable {α : Type} {e : Engine} {id : String} {s : Session} {now : Instant} {retention : Int}

/-! ## Sessions that are due -/

namespace Session

/-- Whether the session is to be taken out of service at some time. -/
def isDue (s : Session) (now : Instant) : Bool := s.isActive && s.isPastExpiry now

/-- The session after a sweep, unless it was dropped. -/
def sweptAt (s : Session) (now : Instant) : Session :=
  if s.isDue now then s.expiredAt now else s

/-- What is told when the session expires, and the clock shows some time. -/
def expiryNotice (s : Session) (now clock : Instant) : Event :=
  .ofSession .sessionExpired (s.expiredAt now) none
    [("duration", .real ((s.expiredAt now).duration (some now) clock))] clock

theorem isDue_of_isPastExpiry (ha : s.isActive = true) (hx : s.isPastExpiry now = true) :
    s.isDue now = true := by
  rw [isDue, ha, hx]
  rfl

theorem isDue_of_inTime (hx : s.isPastExpiry now = false) : s.isDue now = false := by
  rw [isDue, hx, Bool.and_false]

theorem isDue_of_not_isActive (ha : s.isActive = false) : s.isDue now = false := by
  rw [isDue, ha, Bool.false_and]

theorem isLive_of_inTime (ha : s.isActive = true) (hx : s.isPastExpiry now = false) :
    s.isLive now = true := by
  rw [isLive, ha, hx]
  rfl

theorem sweptAt_of_due (h : s.isDue now = true) : s.sweptAt now = s.expiredAt now := if_pos h

theorem sweptAt_of_not_due (h : s.isDue now = false) : s.sweptAt now = s :=
  if_neg (by rw [h]; exact Bool.false_ne_true)

@[simp] theorem id_sweptAt (s : Session) (now : Instant) : (s.sweptAt now).id = s.id := by
  unfold sweptAt
  split <;> rfl

/-- Once is enough. -/
theorem isDue_sweptAt (s : Session) (now : Instant) : (s.sweptAt now).isDue now = false := by
  cases h : s.isDue now with
  | true => rw [sweptAt_of_due h]; rfl
  | false => rw [sweptAt_of_not_due h, h]

/-- A session that has just expired is stale only if nothing is retained at all. -/
theorem isStale_expiredAt (retention : Int) (s : Session) (now : Instant) :
    SessionStore.isStale retention now (s.expiredAt now) = decide (retention < 0) := by
  have hidle : now.since (s.expiredAt now).lastActivityAt = 0 := by
    simp [expiredAt, Instant.since]
  have hzero : (Instant.secondsOf 0).value = 0 := by
    simp [Instant.secondsOf, Binary64.ofRatio, Binary64.value]
  rw [SessionStore.isStale, hidle, show (s.expiredAt now).isActive = false from rfl, Bool.not_false,
    Bool.true_and, Bool.eq_iff_iff, decide_eq_true_eq, Binary64.exceeds_iff rfl, hzero,
    Int.cast_lt_zero]

/-- What is due is not stale. -/
theorem isStale_of_due (h : s.isDue now = true) : SessionStore.isStale retention now s = false := by
  have ha : s.isActive = true := (Bool.and_eq_true_iff.1 h).1
  rw [SessionStore.isStale, ha, Bool.not_true, Bool.false_and]

/-- A sweep finds stale what was stale before it. -/
theorem isStale_sweptAt (s : Session) (now : Instant) (h : 0 ≤ retention) :
    SessionStore.isStale retention now (s.sweptAt now) = SessionStore.isStale retention now s := by
  cases hd : s.isDue now with
  | true =>
      rw [sweptAt_of_due hd, isStale_expiredAt, isStale_of_due hd, decide_eq_false (by omega)]
  | false => rw [sweptAt_of_not_due hd]

end Session

namespace SessionStore

/-- The sessions that are due, oldest first. -/
def due (t : SessionStore) (now : Instant) : List Session :=
  t.sessions.items.filter fun s => s.isDue now

theorem lapsed_eq (t : SessionStore) (now : Instant) :
    t.lapsed now = (t.due now).map Session.id := rfl

theorem get?_of_mem_due {t : SessionStore} (h : s ∈ t.due now) : t.get? s.id = some s :=
  KeyedList.find?_of_mem (List.mem_filter.1 h).1

theorem nodup_due (t : SessionStore) (now : Instant) : ((t.due now).map Session.id).Nodup :=
  t.sessions.nodup.sublist (List.Sublist.map _ List.filter_sublist)

/-- A stored session with the id of one that is due is due. -/
theorem mem_due_iff {t : SessionStore} (h : s ∈ t.sessions.items) :
    s.id ∈ (t.due now).map Session.id ↔ s.isDue now = true := by
  constructor
  · intro hid
    obtain ⟨s', hdue, hid⟩ := List.mem_map.1 hid
    have hsame : t.get? s.id = some s' := hid ▸ get?_of_mem_due hdue
    cases hsame.symm.trans (KeyedList.find?_of_mem h)
    exact (List.mem_filter.1 hdue).2
  · exact fun hdue => List.mem_map_of_mem (List.mem_filter.2 ⟨h, hdue⟩)

/-- A store with nothing stale is kept as it is. -/
theorem dropStale_eq_self {t : SessionStore}
    (h : ∀ s ∈ t.sessions.items, isStale retention now s = false) :
    t.dropStale retention now = t := by
  obtain ⟨⟨items, hnodup⟩⟩ := t
  have hall : items.filter (fun s => !isStale retention now s) = items :=
    List.filter_eq_self.2 fun s hs => by rw [h s hs]; rfl
  simp only [dropStale, KeyedList.filter, hall]

end SessionStore

/-! ## One session -/

/-- A session that is due expires. -/
theorem start_expireSession_of_due (hget : e.store.get? id = some s) (hdue : s.isDue now = true) :
    ∃ locks, (expireSession id now).start e = (.ok true, { e.lapsed s now with locks }) := by
  have hlapse : (lapseIfDue id now).start e = (.ok true, e.lapsed s now) := by
    rw [lapseIfDue, start_bind_of_ok (start_get e)]
    simp only [hget, show (s.isActive && s.isPastExpiry now) = true from hdue, if_true, start_bind,
      start_lapse hget, start_pure]
  obtain ⟨locks, hheld⟩ := (confined_lapseIfDue id now).lockFree.start_hold id e
  rw [hlapse] at hheld
  exact ⟨locks.discard id, by rw [expireSession, start_bind_of_ok hheld]; rfl⟩

/-- A session that is not due is left alone, and so is one that is not stored. -/
theorem start_expireSession_of_not_due
    (h : ∀ s, e.store.get? id = some s → s.isDue now = false) :
    ∃ locks, (expireSession id now).start e = (.ok false, { e with locks }) := by
  have hrest : (lapseIfDue id now).start e = (.ok false, e) := by
    rw [lapseIfDue, start_bind_of_ok (start_get e)]
    cases hget : e.store.get? id with
    | none => rfl
    | some s =>
        simp only [show (s.isActive && s.isPastExpiry now) = false from h s hget,
          Bool.false_eq_true, if_false, start_pure]
  obtain ⟨locks, hheld⟩ := (confined_lapseIfDue id now).lockFree.start_hold id e
  rw [hrest] at hheld
  exact ⟨locks, by rw [expireSession, start_bind_of_ok hheld]; rfl⟩

/-! ## One after another -/

namespace Engine

/-- The engine when some sessions have expired, one after another. -/
def lapsedAll (e : Engine) (now : Instant) (ss : List Session) : Engine :=
  ss.foldl (fun e s => e.lapsed s now) e

theorem lapsedAll_cons (e : Engine) (now : Instant) (s : Session) (rest : List Session) :
    e.lapsedAll now (s :: rest) = (e.lapsed s now).lapsedAll now rest := rfl

theorem lapsedAll_locks (e : Engine) (locks : Locks) (now : Instant) (ss : List Session) :
    { e with locks }.lapsedAll now ss = { e.lapsedAll now ss with locks } := by
  induction ss generalizing e with
  | nil => rfl
  | cons s rest ih => exact ih (e.lapsed s now)

/-- Each of the sessions is told of. -/
theorem tells_lapsedAll (e : Engine) (now : Instant) (ss : List Session) :
    e.Tells (ss.map fun s => s.expiryNotice now e.now) (e.lapsedAll now ss) := by
  induction ss generalizing e with
  | nil => exact tells_nil rfl
  | cons s rest ih =>
      have hfirst : e.Tells [s.expiryNotice now e.now] (e.lapsed s now) := rfl
      exact hfirst.trans (ih (e.lapsed s now))

theorem get?_lapsed_self (hget : e.store.get? id = some s) (now : Instant) :
    (e.lapsed s now).store.get? id = some (s.expiredAt now) :=
  (e.get?_keep (s.expiredAt now) id).trans (if_pos (KeyedList.key_of_find? hget))

theorem get?_lapsed_of_ne {j : String} (h : s.id ≠ j) (now : Instant) :
    (e.lapsed s now).store.get? j = e.store.get? j :=
  (e.get?_keep (s.expiredAt now) j).trans (if_neg h)

/-- A session expires where it stands. -/
theorem items_lapsed (hget : e.store.get? s.id = some s) (now : Instant) :
    (e.lapsed s now).store.sessions.items = e.store.sessions.items.map fun y =>
      if y.id = s.id then y.expiredAt now else y := by
  have hknown : (s.expiredAt now).id ∈ e.store.sessions.keys :=
    List.mem_map.2 ⟨s, KeyedList.mem_of_find? hget, rfl⟩
  refine (KeyedList.items_put_of_mem hknown).trans (List.map_congr_left fun y hy => ?_)
  by_cases hid : y.id = s.id
  · -- the stored session with the id of `s` is `s`
    have hsame : e.store.get? s.id = some y := hid ▸ KeyedList.find?_of_mem hy
    cases hsame.symm.trans hget
    rfl
  · rw [if_neg hid, if_neg (show ¬ y.id = (s.expiredAt now).id from hid)]

/-- When one of some sessions has expired, the others are still as they were. -/
theorem get?_lapsed_rest {rest : List Session} (hs : s.id ∉ rest.map Session.id)
    (hrest : ∀ r ∈ rest, e.store.get? r.id = some r) (now : Instant) :
    ∀ r ∈ rest, (e.lapsed s now).store.get? r.id = some r := fun r hr =>
  (get?_lapsed_of_ne (fun hid => hs (hid ▸ List.mem_map_of_mem hr)) now).trans (hrest r hr)

/-- The sessions expire where they stand. -/
theorem items_lapsedAll {ss : List Session} (hstored : ∀ s ∈ ss, e.store.get? s.id = some s)
    (hnodup : (ss.map Session.id).Nodup) (now : Instant) :
    (e.lapsedAll now ss).store.sessions.items = e.store.sessions.items.map fun y =>
      if y.id ∈ ss.map Session.id then y.expiredAt now else y := by
  induction ss generalizing e with
  | nil => simp [lapsedAll]
  | cons s rest ih =>
      obtain ⟨hfirst, hrest⟩ := List.forall_mem_cons.1 hstored
      obtain ⟨hs, hnodup⟩ := List.nodup_cons.1 hnodup
      have hlater := get?_lapsed_rest hs hrest now
      rw [lapsedAll_cons, ih hlater hnodup, items_lapsed hfirst, List.map_map]
      refine List.map_congr_left fun y _ => ?_
      by_cases hy : y.id = s.id
      · simp [hy, hs, Session.expiredAt]
      · simp [hy]

end Engine

/-- Sessions that are due expire one after another. -/
theorem start_expireEach {ss : List Session} (hstored : ∀ s ∈ ss, e.store.get? s.id = some s)
    (hdue : ∀ s ∈ ss, s.isDue now = true) (hnodup : (ss.map Session.id).Nodup) :
    ∃ locks, (expireEach now (ss.map Session.id)).start e =
      (.ok ss.length, { e.lapsedAll now ss with locks }) := by
  induction ss generalizing e with
  | nil => exact ⟨e.locks, rfl⟩
  | cons s rest ih =>
      obtain ⟨hfirst, hrest⟩ := List.forall_mem_cons.1 hstored
      obtain ⟨hs, hnodup⟩ := List.nodup_cons.1 hnodup
      obtain ⟨locks, hexpired⟩ :=
        start_expireSession_of_due hfirst (hdue s List.mem_cons_self)
      obtain ⟨locks', hall⟩ := ih (e := { e.lapsed s now with locks })
        (Engine.get?_lapsed_rest hs hrest now) (fun r hr => hdue r (List.mem_cons_of_mem _ hr)) hnodup
      refine ⟨locks', ?_⟩
      rw [List.map_cons, expireEach, start_bind_of_ok hexpired, start_bind_of_ok hall,
        Engine.lapsedAll_locks]
      rfl

/-! ## The whole sweep -/

/-- The engine after a sweep, but for the locks. -/
def Engine.swept (e : Engine) (retention : Int) (now : Instant) : Engine :=
  let e' := e.lapsedAll now (e.store.due now)
  { e' with store := e'.store.dropStale retention now }

/-- What a sweep comes to, whatever the retention is. -/
theorem start_sweep (retention : Int) (now : Instant) (e : Engine) :
    ∃ locks, (sweep retention now).start e =
      (.ok (e.store.due now).length, { e.swept retention now with locks }) := by
  obtain ⟨locks, hall⟩ := start_expireEach (e := e) (fun s hs => SessionStore.get?_of_mem_due hs)
    (fun s hs => (List.mem_filter.1 hs).2) (e.store.nodup_due now)
  refine ⟨locks, ?_⟩
  rw [sweep, start_bind_of_ok (start_get e), SessionStore.lapsed_eq, start_bind_of_ok hall]
  rfl

namespace Engine

/-- The sessions that are due expire where they stand. -/
theorem items_lapsedAll_due (e : Engine) (now : Instant) :
    (e.lapsedAll now (e.store.due now)).store.sessions.items =
      e.store.sessions.items.map fun s => s.sweptAt now := by
  rw [items_lapsedAll (fun s hs => SessionStore.get?_of_mem_due hs) (e.store.nodup_due now)]
  refine List.map_congr_left fun y hy => ?_
  simp only [SessionStore.mem_due_iff hy, Session.sweptAt]

/-- The sessions that are due expire, and after that the stale ones are dropped. -/
theorem items_swept (e : Engine) (retention : Int) (now : Instant) :
    (e.swept retention now).store.sessions.items =
      (e.store.sessions.items.map fun s => s.sweptAt now).filter
        fun s => !SessionStore.isStale retention now s :=
  congrArg (List.filter fun s => !SessionStore.isStale retention now s)
    (e.items_lapsedAll_due now)

/-- What a sweep makes of one session. -/
theorem get?_swept (e : Engine) (retention : Int) (now : Instant) (id : String) :
    (e.swept retention now).store.get? id =
      ((e.store.get? id).map fun s => s.sweptAt now).filter
        fun s => !SessionStore.isStale retention now s := by
  refine (SessionStore.get?_dropStale _ retention now id).trans (congrArg _ ?_)
  show List.find? _ (e.lapsedAll now (e.store.due now)).store.sessions.items = _
  rw [items_lapsedAll_due, List.find?_map]
  refine congrArg _ (congrArg (fun p => List.find? p e.store.sessions.items) (funext fun s => ?_))
  rw [Function.comp_apply, Session.id_sweptAt]

/-- A session that is due expires, and is kept if anything is retained. -/
theorem get?_swept_of_due (hget : e.store.get? id = some s) (hdue : s.isDue now = true)
    (retention : Int) : (e.swept retention now).store.get? id =
      if 0 ≤ retention then some (s.expiredAt now) else none := by
  rw [get?_swept, hget, Option.map_some, Option.filter_some, Session.sweptAt_of_due hdue,
    Session.isStale_expiredAt]
  by_cases hr : 0 ≤ retention
  · rw [decide_eq_false (by omega), if_pos hr]
    rfl
  · rw [decide_eq_true (by omega), if_neg hr]
    rfl

/-- An active session that is not due stays. -/
theorem get?_swept_of_live (hget : e.store.get? id = some s) (ha : s.isActive = true)
    (hnot : s.isDue now = false) (retention : Int) :
    (e.swept retention now).store.get? id = some s := by
  rw [get?_swept, hget, Option.map_some, Option.filter_some, Session.sweptAt_of_not_due hnot,
    SessionStore.isStale, ha]
  rfl

/-- The sessions that were not stale before stay, in their order. -/
theorem ids_swept (e : Engine) (h : 0 ≤ retention) (now : Instant) :
    (e.swept retention now).store.ids =
      (e.store.sessions.items.filter fun s => !SessionStore.isStale retention now s).map
        Session.id := by
  have hstale : ((fun s => !SessionStore.isStale retention now s) ∘ fun s => s.sweptAt now) =
      fun s => !SessionStore.isStale retention now s :=
    funext fun s => by rw [Function.comp_apply, s.isStale_sweptAt now h]
  have hid : (Session.id ∘ fun s : Session => s.sweptAt now) = Session.id :=
    funext fun s => s.id_sweptAt now
  show (e.swept retention now).store.sessions.items.map Session.id = _
  rw [items_swept, List.filter_map, hstale, List.map_map, hid]

/-- A session that is due expires, a stale one is dropped, and any other one stays. -/
theorem get?_swept_of_stored (h : 0 ≤ retention) (hget : e.store.get? id = some s)
    (now : Instant) : (e.swept retention now).store.get? id =
      if s.isDue now then some (s.expiredAt now)
      else if SessionStore.isStale retention now s then none else some s := by
  cases hd : s.isDue now with
  | true => rw [get?_swept_of_due hget hd, if_pos h, if_pos rfl]
  | false =>
      rw [get?_swept, hget, Option.map_some, Option.filter_some, Session.sweptAt_of_not_due hd]
      cases SessionStore.isStale retention now s <;> rfl

/-- After a sweep nothing is due. -/
theorem due_swept (e : Engine) (retention : Int) (now : Instant) :
    (e.swept retention now).store.due now = [] := by
  rw [SessionStore.due, items_swept, List.filter_eq_nil_iff]
  intro s hs
  obtain ⟨y, -, rfl⟩ := List.mem_map.1 (List.mem_filter.1 hs).1
  rw [y.isDue_sweptAt now]
  exact Bool.false_ne_true

/-- After a sweep nothing is stale. -/
theorem dropStale_swept (e : Engine) (retention : Int) (now : Instant) :
    (e.swept retention now).store.dropStale retention now = (e.swept retention now).store := by
  refine SessionStore.dropStale_eq_self fun s hs => ?_
  rw [items_swept] at hs
  simpa using (List.mem_filter.1 hs).2

end Engine

/-- A sweep that has nothing to do does nothing. -/
theorem start_sweep_of_nothing (hdue : e.store.due now = [])
    (hkept : e.store.dropStale retention now = e.store) :
    (sweep retention now).start e = (.ok 0, e) := by
  have hlapsed : e.store.lapsed now = [] := by rw [SessionStore.lapsed_eq, hdue, List.map_nil]
  rw [sweep, start_bind_of_ok (start_get e), hlapsed]
  show (Except.ok 0, { e with store := e.store.dropStale retention now }) = _
  rw [hkept]

/-- **A sweep does its job, once.**  Where sessions are retained for no negative time,
a sweep returns the number of sessions that are due.  Those expire at the time of the
sweep, the sessions that were stale before are dropped, and all others stay as they
are; the order is kept.  One expiry is told of each session that was due, and nothing
else.  The same sweep again finds nothing and changes nothing.

Stale are the finished sessions whose idle time exceeds the retention once it is rounded
to a number of seconds.  It then exceeds the retention unrounded.  Conversely, below a
retention of `2 ^ 34` seconds an idle time that exceeds it is enough, and in any case one
that exceeds it by more than 30 microseconds. -/
theorem sweep_once (e : Engine) (now : Instant) (h : 0 ≤ retention) :
    (∃ e', (sweep retention now).start e = (.ok (e.store.due now).length, e') ∧
      (∀ id s, e.store.get? id = some s → e'.store.get? id =
        if s.isDue now then some (s.expiredAt now)
        else if SessionStore.isStale retention now s then none else some s) ∧
      e'.store.ids = (e.store.sessions.items.filter fun s =>
        !SessionStore.isStale retention now s).map Session.id ∧
      e.Tells ((e.store.due now).map fun s => s.expiryNotice now e.now) e' ∧
      (sweep retention now).start e' = (.ok 0, e')) ∧
    ∀ s : Session,
      (SessionStore.isStale retention now s = true ↔ s.isActive = false ∧
        ∃ x : Binary64, x.IsNearest (now.since s.lastActivityAt / 1000000) ∧
          (retention : ℚ) < x.value) ∧
      (SessionStore.isStale retention now s = true →
        retention * 1000000 < now.since s.lastActivityAt) ∧
      (retention < 2 ^ 34 → s.isActive = false →
        retention * 1000000 < now.since s.lastActivityAt →
          SessionStore.isStale retention now s = true) ∧
      (s.isActive = false → retention * 1000000 + 30 < now.since s.lastActivityAt →
        SessionStore.isStale retention now s = true) := by
  obtain ⟨locks, hstart⟩ := start_sweep retention now e
  refine ⟨⟨_, hstart, fun id s hget => Engine.get?_swept_of_stored h hget now, e.ids_swept h now,
    e.tells_lapsedAll now _,
    start_sweep_of_nothing (e.due_swept retention now) (e.dropStale_swept retention now)⟩,
    fun s => ⟨SessionStore.isStale_iff, fun hstale => (SessionStore.idle_of_isStale hstale).2,
      fun hsmall hover => SessionStore.isStale_of_idle hover h hsmall,
      fun hover => SessionStore.isStale_of_long_idle hover h⟩⟩

/-- A session of some status, with the times of its last activity and of its expiry. -/
def Session.idling (id : String) (status : SessionStatus) (lastActivityAt expiresAt : Instant) :
    Session where
  id := id
  flowId := "greeting"
  flowVersion := 1
  phoneNumber := "555"
  ussdCode := "*1#"
  status := status
  currentNode := some "start"
  bindings := .empty
  history := []
  stepCount := 0
  startedAt := ⟨0, Instant.zero_inRange⟩
  lastActivityAt := lastActivityAt
  expiresAt := expiresAt
  completedAt := none
  terminationReason := none
  metadata := []

/-- A store with a session that expires a second after the start, one that expires at
once, and two that are completed, one of them a second after the start. -/
def SessionStore.idling : SessionStore :=
  let start : Instant := ⟨0, Instant.zero_inRange⟩
  let later : Instant := ⟨1000000, Instant.second_inRange⟩
  ⟨.ofList [.idling "live" .active start later, .idling "due" .active start start,
    .idling "over" .completed later later, .idling "stale" .completed start start]⟩

/-- A second after the start the first session is still live, and the third one is
retained.  At a retention of `2 ^ 34` seconds a microsecond more does not count: the
finished sessions are retained, although they have been idle for longer. -/
theorem sweep_once_idling :
    (∃ e', (sweep 0 ⟨1000000, Instant.second_inRange⟩).start
        { Engine.fresh .standard none none ⟨0, Instant.zero_inRange⟩ with store := .idling } =
          (.ok 1, e') ∧
      e'.store.ids = ["live", "due", "over"] ∧
      (e'.store.get? "due").map Session.status = some .expired ∧
      (sweep 0 ⟨1000000, Instant.second_inRange⟩).start e' = (.ok 0, e')) ∧
    ∃ e', (sweep 17179869184 ⟨17179869184000001, by decide⟩).start
        { Engine.fresh .standard none none ⟨0, Instant.zero_inRange⟩ with store := .idling } =
          (.ok 2, e') ∧
      e'.store.ids = ["live", "due", "over", "stale"] := by
  obtain ⟨⟨e₁, hstart₁, hget₁, hids₁, -, hagain₁⟩, -⟩ := sweep_once
    { Engine.fresh .standard none none ⟨0, Instant.zero_inRange⟩ with store := .idling }
    ⟨1000000, Instant.second_inRange⟩ (Int.le_refl 0)
  obtain ⟨⟨e₂, hstart₂, -, hids₂, -⟩, -⟩ := sweep_once
    { Engine.fresh .standard none none ⟨0, Instant.zero_inRange⟩ with store := .idling }
    ⟨17179869184000001, by decide⟩ (Int.natCast_nonneg 17179869184)
  refine ⟨⟨e₁, hstart₁, hids₁.trans (by decide +kernel), ?_, hagain₁⟩,
    e₂, hstart₂, hids₂.trans (by decide +kernel)⟩
  rw [hget₁ "due" _ rfl]
  rfl

end UssdFlows
