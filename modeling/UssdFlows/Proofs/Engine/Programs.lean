import UssdFlows.Engine.Operations

/-!
# Programs of the engine, step by step

A program of the engine is a function on its state, and `start` runs it.  This
file says what running each of the basic programs comes to, so that a longer
program is run by rewriting (`start_bind` and the laws after it).

Three changes of the state recur and have names: a session is kept
(`Engine.keep`), something is counted (`Engine.tally`), and an event is
announced (`Engine.announce`).  Whatever only does these leaves the *service*
as it was (`Engine.SameService`): the flows, the settings, the executor and the
present.
-/

namespace UssdFlows

namespace Engine

/-! ## Recurring changes -/

/-- The engine with a session in the place of the stored one with its id. -/
def keep (e : Engine) (s : Session) : Engine := { e with store := ⟨e.store.sessions.put s⟩ }

/-- The engine with something added to a count. -/
def tally (e : Engine) (m : Metric) (n : Int) : Engine :=
  { e with metrics := e.metrics.add m n }

/-- The engine after an event of a session was published. -/
def announce (e : Engine) (type : EventType) (s : Session) (node : Option String)
    (data : List (String × Value)) : Engine :=
  { e with sink := e.sink.map fun k => k.publish (.ofSession type s node data e.now) }

variable (e : Engine) (s : Session)

theorem get?_keep (id : String) :
    (e.keep s).store.get? id = if s.id = id then some s else e.store.get? id :=
  KeyedList.find?_put e.store.sessions s id

/-- Of two sessions with one id that are kept one after the other the later one
stays. -/
theorem keep_keep {s s' : Session} (h : s.id = s'.id) : (e.keep s).keep s' = e.keep s' := by
  simp only [keep, KeyedList.put_put_of_eq e.store.sessions h]

/-! ## What most programs leave alone -/

/-- Two states of the engine that serve the same flows under the same
conditions. -/
structure SameService (e e' : Engine) : Prop where
  settings : e'.settings = e.settings
  versions : e'.registry.versions = e.registry.versions
  current : e'.registry.current = e.registry.current
  executor : e'.executor = e.executor
  replaced : e'.replaced = e.replaced
  now : e'.now = e.now
  nextSession : e'.nextSession = e.nextSession

theorem SameService.refl : e.SameService e := ⟨rfl, rfl, rfl, rfl, rfl, rfl, rfl⟩

variable {e}

theorem SameService.trans {e' e'' : Engine} (h : e.SameService e') (h' : e'.SameService e'') :
    e.SameService e'' :=
  ⟨h'.settings.trans h.settings, h'.versions.trans h.versions, h'.current.trans h.current,
    h'.executor.trans h.executor, h'.replaced.trans h.replaced, h'.now.trans h.now,
    h'.nextSession.trans h.nextSession⟩

theorem SameService.symm {e' : Engine} (h : e.SameService e') : e'.SameService e :=
  ⟨h.settings.symm, h.versions.symm, h.current.symm, h.executor.symm, h.replaced.symm, h.now.symm,
    h.nextSession.symm⟩

theorem SameService.version? {e' : Engine} (h : e.SameService e') (id : String) (v : Int) :
    e'.registry.version? id v = e.registry.version? id v := by
  rw [Registry.version?, h.versions, Registry.version?]

end Engine

namespace EngineM

variable {α β : Type}

/-! ## Running basic programs -/

theorem start_bind_of_ok {x : EngineM α} {f : α → EngineM β} {e e' : Engine} {a : α}
    (h : x.start e = (.ok a, e')) : (x >>= f).start e = (f a).start e' := by
  rw [start_bind, h]

theorem start_bind_of_error {x : EngineM α} {f : α → EngineM β} {e e' : Engine}
    {err : EngineError} (h : x.start e = (.error err, e')) :
    (x >>= f).start e = (.error err, e') := by
  rw [start_bind, h]

@[simp] theorem start_get (e : Engine) : (get : EngineM Engine).start e = (.ok e, e) := rfl

@[simp] theorem start_modify (f : Engine → Engine) (e : Engine) :
    (modify f : EngineM Unit).start e = (.ok (), f e) := rfl

@[simp] theorem start_modifyGet (f : Engine → α × Engine) (e : Engine) :
    (modifyGet f : EngineM α).start e = (.ok (f e).1, (f e).2) := rfl

@[simp] theorem start_ofResult (r : Except EngineError α) (e : Engine) :
    (ofResult r).start e = (r, e) := rfl

@[simp] theorem start_ofOption_some (error : EngineError) (a : α) (e : Engine) :
    (ofOption error (some a)).start e = (.ok a, e) := rfl

@[simp] theorem start_ofOption_none (error : EngineError) (e : Engine) :
    (ofOption error (none : Option α)).start e = (.error error, e) := rfl

@[simp] theorem start_add (m : Metric) (n : Int) (e : Engine) :
    (add m n).start e = (.ok (), e.tally m n) := rfl

@[simp] theorem start_count (m : Metric) (e : Engine) :
    (count m).start e = (.ok (), e.tally m 1) := rfl

@[simp] theorem start_emit (type : EventType) (s : Session) (node : Option String)
    (data : List (String × Value)) (e : Engine) :
    (emit type s node data).start e = (.ok (), e.announce type s node data) := rfl

/-! ## Sessions -/

variable {e : Engine} {id : String} {s : Session}

theorem start_session_of_stored (h : e.store.get? id = some s) :
    (session id).start e = (.ok s, e) := by
  simp only [session, start_bind, start_get, h, start_ofOption_some]

theorem start_session_of_missing (h : e.store.get? id = none) :
    (session id).start e = (.error (.sessionNotFound id), e) := by
  simp only [session, start_bind, start_get, h, start_ofOption_none]

theorem start_served_of_stored (h : e.store.get? id = some s) :
    (served id).start e = (.ok s, e) := by
  simp only [served, start_bind, start_get, h, start_ofOption_some]

theorem start_served_of_missing (h : e.store.get? id = none) :
    (served id).start e = (.error (.store (.notStored id)), e) := by
  simp only [served, start_bind, start_get, h, start_ofOption_none]

/-- Changing a stored session keeps the changed one, provided it has its id. -/
theorem start_change_of_stored (h : e.store.get? id = some s) {f : Session → Session}
    (hf : (f s).id = s.id) : (change id f).start e = (.ok (f s), e.keep (f s)) := by
  have hid : s.id = id := KeyedList.key_of_find? h
  have hsame : { f s with id := s.id } = f s := by rw [← hf]
  have hstore : e.store.modify id f = (e.keep (f s)).store := by
    rw [SessionStore.modify, h]
    show SessionStore.mk _ = _
    rw [hsame]
    rfl
  have hget : (e.keep (f s)).store.get? id = some (f s) := by
    rw [Engine.get?_keep, if_pos (hf.trans hid)]
  simp only [change, start_bind, start_modify, hstore]
  exact start_served_of_stored hget

theorem start_change_of_missing (h : e.store.get? id = none) (f : Session → Session) :
    (change id f).start e = (.error (.store (.notStored id)), e) := by
  have hstore : e.store.modify id f = e.store := by rw [SessionStore.modify, h]
  simp only [change, start_bind, start_modify, hstore]
  exact start_served_of_missing h

/-! ## Flows and nodes -/

theorem start_flowOf_of_stored {f : Flow}
    (h : e.registry.version? s.flowId s.flowVersion = some f) :
    (flowOf s).start e = (.ok f, e) := by
  simp only [flowOf, start_bind, start_get, h, start_ofOption_some]

theorem start_nodeOf_of_some {f : Flow} {node : Option String} {n : Node}
    (h : node.bind f.node? = some n) (e : Engine) : (nodeOf f node).start e = (.ok n, e) := by
  rw [nodeOf, h, start_ofOption_some]

/-! ## Results -/

/-- What is so when the first of two programs is over, and stays so through the other,
is so in the end. -/
theorem state_bind {β : Type} {P : Engine → Prop} {x : EngineM α} {f : α → EngineM β} {e : Engine}
    (hx : P (x.start e).2)
    (hf : ∀ a e', x.start e = (.ok a, e') → P e' → P ((f a).start e').2) :
    P ((x >>= f).start e).2 := by
  rw [start_bind]
  rcases hstart : x.start e with ⟨err | a, e'⟩
  · rw [hstart] at hx
    exact hx
  · rw [hstart] at hx
    exact hf a e' hstart hx

/-- A property of the value that a program gives can be evaluated. -/
theorem any_toOption_iff {ε : Type} {r : Except ε α} {p : α → Bool} :
    r.toOption.any p = true ↔ ∃ a, r = .ok a ∧ p a = true := by
  cases r <;> simp [Except.toOption]

/-! ## Locked sections -/

/-- What a section does to the locks before and after its program is run. -/
theorem start_hold (key : String) (body : EngineM α) (e : Engine) :
    (hold key body).start e =
      let inside := (enterLock key solo).start e
      let r := body.start inside.2
      (r.1, ((leaveLock key (e.locks.checkOut key).1 solo).start r.2).2) := by
  simp only [hold, start_bind, start_attempt, start_ofResult, enterLock, leaveLock,
    start_modifyGet, start_modify]

end EngineM

end UssdFlows
