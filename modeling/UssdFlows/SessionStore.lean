import UssdFlows.Session

/-!
# Stored sessions

The store holds sessions under their ids, in the order in which they were
created.  Listing shows the most recently active first; removing drops
finished sessions that have been idle for longer than they are retained.
-/

namespace UssdFlows

/-- The sessions that are kept. -/
structure SessionStore where
  sessions : KeyedList Session.id

/-- Why a session cannot be stored. -/
inductive StoreError where
  | alreadyStored (id : String)
  | notStored (id : String)
  deriving DecidableEq, Repr

/-- The wording of a store error. -/
def StoreError.message : StoreError → String
  | alreadyStored id => "Session with session_id " ++ id ++ " already exists"
  | notStored id => "Session with session_id " ++ id ++ " not found"

namespace SessionStore

/-- The store without sessions. -/
def empty : SessionStore := ⟨.empty⟩

/-- The session with an id. -/
def get? (t : SessionStore) (id : String) : Option Session := t.sessions.find? id

/-- The ids of the sessions, oldest session first. -/
def ids (t : SessionStore) : List String := t.sessions.keys

/-- Stores a new session. -/
def create (t : SessionStore) (s : Session) : Except StoreError SessionStore :=
  if t.sessions.contains s.id then .error (.alreadyStored s.id) else .ok ⟨t.sessions.put s⟩

/-- Replaces a session that is stored. -/
def update (t : SessionStore) (s : Session) : Except StoreError SessionStore :=
  if t.sessions.contains s.id then .ok ⟨t.sessions.put s⟩ else .error (.notStored s.id)

/-- Changes the session with an id, if it is stored; the change keeps the id. -/
def modify (t : SessionStore) (id : String) (change : Session → Session) : SessionStore :=
  match t.get? id with
  | some s => ⟨t.sessions.put { change s with id := s.id }⟩
  | none => t

/-- Sessions sorted by their last activity, latest first; those of one time
keep their order. -/
def latestFirst (xs : List Session) : List Session :=
  xs.mergeSort fun s t => !s.lastActivityAt.before t.lastActivityAt

/-- The first items of a list; a negative count drops so many from the end. -/
def limited {α : Type} (limit : Option Int) (xs : List α) : List α :=
  match limit with
  | none => xs
  | some n => if 0 ≤ n then xs.take n.toNat else xs.take (xs.length - n.natAbs)

/-- The sessions with a status and of a flow, as far as these are given, most
recently active first. -/
def list (t : SessionStore) (status : Option SessionStatus) (flowId : Option String)
    (limit : Option Int) : List Session :=
  limited limit <| latestFirst <| t.sessions.items.filter fun s =>
    status.all (· == s.status) && flowId.all (· == s.flowId)

/-- The ids of active sessions. -/
def active (t : SessionStore) : List String :=
  (t.sessions.items.filter Session.isActive).map Session.id

/-- The first live session of a caller in a flow. -/
def findLive? (t : SessionStore) (flowId phoneNumber ussdCode : String) (now : Instant) :
    Option Session :=
  t.sessions.items.find? fun s =>
    s.isActive && s.flowId == flowId && s.phoneNumber == phoneNumber && s.ussdCode == ussdCode &&
      !s.isPastExpiry now

/-- The ids of active sessions that have been idle for too long. -/
def lapsed (t : SessionStore) (now : Instant) : List String :=
  (t.sessions.items.filter fun s => s.isActive && s.isPastExpiry now).map Session.id

/-- Whether a session is finished and has been idle for more than so many seconds.  The
seconds are counted in a number of the binary64 format. -/
def isStale (retention : Int) (now : Instant) (s : Session) : Bool :=
  !s.isActive && (Instant.secondsOf (now.since s.lastActivityAt)).exceeds retention

/-- The store without its stale sessions. -/
def dropStale (t : SessionStore) (retention : Int) (now : Instant) : SessionStore :=
  ⟨t.sessions.filter fun s => !isStale retention now s⟩

/-- The ids of the stale sessions. -/
def stale (t : SessionStore) (retention : Int) (now : Instant) : List String :=
  (t.sessions.items.filter (isStale retention now)).map Session.id

/-! ## Laws -/

/-- A session is there after stale ones were dropped if it is not stale. -/
theorem get?_dropStale (t : SessionStore) (retention : Int) (now : Instant) (id : String) :
    (t.dropStale retention now).get? id = (t.get? id).filter fun s => !isStale retention now s := by
  ext s
  rw [Option.filter_eq_some_iff]
  constructor
  · intro h
    obtain ⟨hmem, hid⟩ := KeyedList.find?_eq_some_iff.1 h
    obtain ⟨hmem, hs⟩ := List.mem_filter.1 hmem
    exact ⟨KeyedList.find?_eq_some_iff.2 ⟨hmem, hid⟩, hs⟩
  · rintro ⟨h, hs⟩
    obtain ⟨hmem, hid⟩ := KeyedList.find?_eq_some_iff.1 h
    exact KeyedList.find?_eq_some_iff.2 ⟨List.mem_filter.2 ⟨hmem, hs⟩, hid⟩

/-- Active sessions are never dropped. -/
theorem get?_dropStale_of_active {t : SessionStore} {id : String} {s : Session} {retention : Int}
    {now : Instant} (h : t.get? id = some s) (ha : s.isActive = true) :
    (t.dropStale retention now).get? id = some s := by
  rw [get?_dropStale, h, Option.filter_some, isStale, ha]
  rfl

end SessionStore

end UssdFlows
