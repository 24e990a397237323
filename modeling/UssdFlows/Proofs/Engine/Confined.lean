import UssdFlows.Proofs.Engine.Pieces
import UssdFlows.Proofs.Engine.Stages

/-!
# What programs leave alone

Whatever runs inside the section of a session is *confined* to it
(`EngineM.Confined`).  It takes no notice of the locks and does not change them,
and of the stored sessions it changes no other one.  What it may change of its
own session is listed by effects: it may move it to another node, renew it along
with an input that is recorded, or end it.  It never changes whose session it is, nor makes it active
again (`Session.Follows`).

Every program that looks up and changes one session is confined, whatever the
state of the engine; the stages of a turn are, each with its own effect
(`confined_perform`).
-/

namespace UssdFlows

open EngineM

variable {α β : Type} {e e' e'' : Engine} {id : String} {s s' s'' : Session}

/-! ## Effects on a session -/

/-- What may happen to a session that is being served. -/
inductive Effect where
  | move
  | renew
  | finish
  deriving DecidableEq

/-- The session a while later, when only these things may have happened to it. -/
structure Session.Follows (may : Effect → Prop) (s s' : Session) : Prop where
  id : s'.id = s.id
  flowId : s'.flowId = s.flowId
  flowVersion : s'.flowVersion = s.flowVersion
  phoneNumber : s'.phoneNumber = s.phoneNumber
  ussdCode : s'.ussdCode = s.ussdCode
  node : ¬ may .move → s'.currentNode = s.currentNode
  expiry : ¬ may .renew → s'.expiresAt = s.expiresAt
  history : ¬ may .renew → s'.history = s.history
  status : ¬ may .finish → s'.status = s.status
  active : s'.isActive = true → s.isActive = true

variable {may may' : Effect → Prop}

namespace Session.Follows

theorem refl (may : Effect → Prop) (s : Session) : s.Follows may s :=
  ⟨rfl, rfl, rfl, rfl, rfl, fun _ => rfl, fun _ => rfl, fun _ => rfl, fun _ => rfl, fun h => h⟩

theorem trans (h : s.Follows may s') (h' : s'.Follows may s'') : s.Follows may s'' where
  id := h'.id.trans h.id
  flowId := h'.flowId.trans h.flowId
  flowVersion := h'.flowVersion.trans h.flowVersion
  phoneNumber := h'.phoneNumber.trans h.phoneNumber
  ussdCode := h'.ussdCode.trans h.ussdCode
  node := fun hno => (h'.node hno).trans (h.node hno)
  expiry := fun hno => (h'.expiry hno).trans (h.expiry hno)
  history := fun hno => (h'.history hno).trans (h.history hno)
  status := fun hno => (h'.status hno).trans (h.status hno)
  active := fun ha => h.active (h'.active ha)

theorem mono (h : s.Follows may s') (hmay : ∀ x, may x → may' x) : s.Follows may' s' :=
  { h with
    node := fun hno => h.node fun hm => hno (hmay _ hm)
    expiry := fun hno => h.expiry fun hm => hno (hmay _ hm)
    history := fun hno => h.history fun hm => hno (hmay _ hm)
    status := fun hno => h.status fun hm => hno (hmay _ hm) }

/-- A change that concerns neither the node, the inputs and the time, nor the status. -/
theorem of_same (hid : s'.id = s.id) (hflow : s'.flowId = s.flowId)
    (hversion : s'.flowVersion = s.flowVersion) (hphone : s'.phoneNumber = s.phoneNumber)
    (hcode : s'.ussdCode = s.ussdCode) (hnode : s'.currentNode = s.currentNode)
    (hexpiry : s'.expiresAt = s.expiresAt) (hhistory : s'.history = s.history)
    (hstatus : s'.status = s.status) : s.Follows may s' :=
  ⟨hid, hflow, hversion, hphone, hcode, fun _ => hnode, fun _ => hexpiry, fun _ => hhistory,
    fun _ => hstatus, fun ha => by rwa [isActive, hstatus] at ha⟩

end Session.Follows

theorem Session.follows_capture (s : Session) (captured : Dict String) :
    s.Follows may (s.capture captured) := .of_same rfl rfl rfl rfl rfl rfl rfl rfl rfl

theorem Session.follows_movedTo (s : Session) (node : String) (now : Instant) (h : may .move) :
    s.Follows may { s with currentNode := some node, lastActivityAt := now } :=
  ⟨rfl, rfl, rfl, rfl, rfl, fun hno => absurd h hno, fun _ => rfl, fun _ => rfl, fun _ => rfl,
    fun ha => ha⟩

/-- A session that is ended is not active any more. -/
theorem Session.follows_ended (h : may .finish) (hid : s'.id = s.id) (hflow : s'.flowId = s.flowId)
    (hversion : s'.flowVersion = s.flowVersion) (hphone : s'.phoneNumber = s.phoneNumber)
    (hcode : s'.ussdCode = s.ussdCode) (hnode : s'.currentNode = s.currentNode)
    (hexpiry : s'.expiresAt = s.expiresAt) (hhistory : s'.history = s.history)
    (hover : s'.isActive = false) : s.Follows may s' :=
  ⟨hid, hflow, hversion, hphone, hcode, fun _ => hnode, fun _ => hexpiry, fun _ => hhistory,
    fun hno => absurd h hno, fun ha => absurd (hover.symm.trans ha) Bool.false_ne_true⟩

/-! ## Effects on the engine -/

/-- The engine a while later, when only one session may have changed, and only in
these ways. -/
structure Engine.Touches (may : Effect → Prop) (id : String) (e e' : Engine) : Prop where
  service : e.SameService e'
  others : ∀ j, j ≠ id → e'.store.get? j = e.store.get? j
  own : ∀ s', e'.store.get? id = some s' → ∃ s, e.store.get? id = some s ∧ s.Follows may s'
  stays : ∀ s, e.store.get? id = some s → ∃ s', e'.store.get? id = some s' ∧ s.Follows may s'

namespace Engine.Touches

theorem of_same (hs : e.SameService e') (hstore : e'.store = e.store) : e.Touches may id e' where
  service := hs
  others := fun j _ => by rw [hstore]
  own := fun s' hget => ⟨s', hstore ▸ hget, .refl may s'⟩
  stays := fun s hget => ⟨s, hstore ▸ hget, .refl may s⟩

theorem refl (e : Engine) : e.Touches may id e := of_same (.refl e) rfl

theorem trans (h : e.Touches may id e') (h' : e'.Touches may id e'') : e.Touches may id e'' where
  service := h.service.trans h'.service
  others := fun j hj => (h'.others j hj).trans (h.others j hj)
  own := fun s'' hget => by
    obtain ⟨s', hget', hf'⟩ := h'.own s'' hget
    obtain ⟨s, hget, hf⟩ := h.own s' hget'
    exact ⟨s, hget, hf.trans hf'⟩
  stays := fun s hget => by
    obtain ⟨s', hget', hf⟩ := h.stays s hget
    obtain ⟨s'', hget'', hf'⟩ := h'.stays s' hget'
    exact ⟨s'', hget'', hf.trans hf'⟩

theorem mono (h : e.Touches may id e') (hmay : ∀ x, may x → may' x) : e.Touches may' id e' :=
  { h with
    own := fun s' hget => (h.own s' hget).imp fun _ hs => ⟨hs.1, hs.2.mono hmay⟩
    stays := fun s hget => (h.stays s hget).imp fun _ hs => ⟨hs.1, hs.2.mono hmay⟩ }

theorem keep (hget : e.store.get? id = some s) (h : s.Follows may s') :
    e.Touches may id (e.keep s') := by
  have hid : s'.id = id := h.id.trans (KeyedList.key_of_find? hget)
  refine ⟨e.sameService_keep s', fun j hj => ?_, fun s'' hget' => ?_, fun s'' hget' => ?_⟩
  · rw [Engine.get?_keep, if_neg fun hc => hj (hc.symm.trans hid)]
  · rw [Engine.get?_keep, if_pos hid, Option.some.injEq] at hget'
    subst hget'
    exact ⟨s, hget, h⟩
  · rw [hget, Option.some.injEq] at hget'
    subst hget'
    exact ⟨s', by rw [Engine.get?_keep, if_pos hid], h⟩

end Engine.Touches

theorem Engine.Alike.touches (h : e.Alike e') : e.Touches may id e' := .of_same h.service h.store

/-! ## Programs that take no notice of the locks -/

namespace EngineM

/-- A program does the same whatever the locks are, and leaves them as they are. -/
def LockFree (x : EngineM α) : Prop :=
  ∀ (e : Engine) (locks : Locks), x.start { e with locks } =
    ((x.start e).1, { (x.start e).2 with locks })

/-- The locks stay. -/
theorem LockFree.locks {x : EngineM α} (h : LockFree x) (e : Engine) :
    (x.start e).2.locks = e.locks := congrArg (·.2.locks) (h e e.locks)

theorem LockFree.locks_of_start {x : EngineM α} {r : Except EngineError α} (h : LockFree x)
    (hstart : x.start e = (r, e')) : e'.locks = e.locks := by
  have hlocks := h.locks e
  rw [hstart] at hlocks
  exact hlocks

/-- It runs in a section as it does outside. -/
theorem LockFree.start_hold {x : EngineM α} (h : LockFree x) (key : String) (e : Engine) :
    ∃ locks, (hold key x).start e = ((x.start e).1, { (x.start e).2 with locks }) := by
  have hinside : (enterLock key solo).start e =
      (.ok _, { e with locks := (e.locks.checkOut key).2.enter (e.locks.checkOut key).1 solo }) :=
    rfl
  rw [EngineM.start_hold, hinside]
  dsimp only
  rw [h e]
  exact ⟨_, rfl⟩

theorem lockFree_bind {x : EngineM α} {f : α → EngineM β} (hx : LockFree x)
    (hf : ∀ a, LockFree (f a)) : LockFree (x >>= f) := by
  intro e locks
  rw [start_bind, start_bind, hx e locks]
  rcases x.start e with ⟨r | a, e'⟩
  · rfl
  · exact hf a e' locks

/-- A program may read the engine if it does not look at the locks. -/
theorem lockFree_get_bind {f : Engine → EngineM β} (hf : ∀ e, LockFree (f e))
    (hlocks : ∀ (e : Engine) (locks : Locks), f { e with locks } = f e) :
    LockFree (get >>= f) := by
  intro e locks
  rw [start_bind_of_ok (start_get _), start_bind_of_ok (start_get _), hlocks]
  exact hf e e locks

theorem lockFree_pure (a : α) : LockFree (pure a) := fun _ _ => rfl

theorem lockFree_throw (err : EngineError) : LockFree (throw err : EngineM α) := fun _ _ => rfl

theorem lockFree_ofResult (r : Except EngineError α) : LockFree (ofResult r) := fun _ _ => rfl

theorem lockFree_ofOption (err : EngineError) (o : Option α) : LockFree (ofOption err o) := by
  cases o with
  | none => exact lockFree_throw err
  | some a => exact lockFree_pure a

theorem lockFree_attempt {x : EngineM α} (h : LockFree x) : LockFree (attempt x) := by
  intro e locks
  rw [start_attempt, h e locks]
  rfl

theorem lockFree_count (m : Metric) : LockFree (count m) := fun _ _ => rfl

/-! ## Confined programs -/

/-- A program has no part in the locks, and changes one session at most, in these
ways only. -/
structure Confined (may : Effect → Prop) (id : String) (x : EngineM α) : Prop where
  lockFree : LockFree x
  touches : ∀ e : Engine, e.Touches may id (x.start e).2

theorem Confined.touches_of_start {x : EngineM α} {r : Except EngineError α}
    (h : Confined may id x) (hstart : x.start e = (r, e')) : e.Touches may id e' := by
  have htouches := h.touches e
  rw [hstart] at htouches
  exact htouches

theorem Confined.bind {x : EngineM α} {f : α → EngineM β} (hx : Confined may id x)
    (hf : ∀ a, Confined may id (f a)) : Confined may id (x >>= f) where
  lockFree := lockFree_bind hx.lockFree fun a => (hf a).lockFree
  touches := fun e => state_bind (hx.touches e) fun a e' _ h => h.trans ((hf a).touches e')

theorem confined_get_bind {f : Engine → EngineM β} (hf : ∀ e, Confined may id (f e))
    (hlocks : ∀ (e : Engine) (locks : Locks), f { e with locks } = f e) :
    Confined may id (get >>= f) := by
  refine ⟨lockFree_get_bind (fun e => (hf e).lockFree) hlocks, fun e => ?_⟩
  rw [start_bind_of_ok (start_get e)]
  exact (hf e).touches e

theorem confined_pure (a : α) : Confined may id (pure a) := ⟨lockFree_pure a, fun e => .refl e⟩

theorem confined_throw (err : EngineError) : Confined may id (throw err : EngineM α) :=
  ⟨lockFree_throw err, fun e => .refl e⟩

theorem confined_throw_bind (err : EngineError) (f : α → EngineM β) :
    Confined may id (throw err >>= f) := ⟨fun _ _ => rfl, fun e => .refl e⟩

theorem confined_ofResult (r : Except EngineError α) : Confined may id (ofResult r) :=
  ⟨lockFree_ofResult r, fun e => .refl e⟩

theorem confined_ofOption (err : EngineError) (o : Option α) : Confined may id (ofOption err o) := by
  cases o with
  | none => exact confined_throw err
  | some a => exact confined_pure a

theorem confined_add (m : Metric) (n : Int) : Confined may id (add m n) :=
  ⟨fun _ _ => rfl, fun e => (e.alike_tally m n).touches⟩

theorem confined_count (m : Metric) : Confined may id (count m) := confined_add m 1

theorem confined_emit (type : EventType) (s : Session) (node : Option String)
    (data : List (String × Value)) : Confined may id (emit type s node data) :=
  ⟨fun _ _ => rfl, fun e => .of_same (e.sameService_announce s type node data) rfl⟩

theorem confined_session (j : String) : Confined may id (session j) :=
  confined_get_bind (fun _ => confined_ofOption _ _) fun _ _ => rfl

theorem confined_served (j : String) : Confined may id (served j) :=
  confined_get_bind (fun _ => confined_ofOption _ _) fun _ _ => rfl

theorem lockFree_served (j : String) : LockFree (served j) :=
  lockFree_get_bind (fun _ => lockFree_ofOption _ _) fun _ _ => rfl

theorem confined_flowOf (s : Session) : Confined may id (flowOf s) :=
  confined_get_bind (fun _ => confined_ofOption _ _) fun _ _ => rfl

theorem confined_nodeOf (f : Flow) (node : Option String) : Confined may id (nodeOf f node) :=
  confined_ofOption _ _

theorem lockFree_change (id : String) (f : Session → Session) : LockFree (change id f) :=
  lockFree_bind (fun _ _ => rfl) fun _ =>
    lockFree_get_bind (fun _ => lockFree_ofOption _ _) fun _ _ => rfl

theorem confined_change {f : Session → Session} (hf : ∀ s : Session, s.Follows may (f s)) :
    Confined may id (change id f) := by
  refine ⟨lockFree_change id f, fun e => ?_⟩
  cases hget : e.store.get? id with
  | none =>
      rw [start_change_of_missing hget]
      exact .refl e
  | some s =>
      rw [start_change_of_stored hget (hf s).id]
      exact .keep hget (hf s)

end EngineM

/-! ## Sessions that end -/

/-- The one thing that ending a session does. -/
def Effect.IsFinish (x : Effect) : Prop := x = .finish

theorem confined_lapse (id : String) (now : Instant) :
    Confined Effect.IsFinish id (lapse id now) := by
  refine (confined_change fun s => ?_).bind fun s => ?_
  · exact Session.follows_ended rfl rfl rfl rfl rfl rfl rfl rfl rfl rfl
  · refine (confined_add _ _).bind fun _ => (confined_count _).bind fun _ => ?_
    exact confined_get_bind (fun _ => confined_emit ..) fun _ _ => rfl

theorem confined_admission (id input : String) :
    Confined Effect.IsFinish id (admission id input) := by
  refine (confined_session id).bind fun s => confined_get_bind (fun e => ?_) fun _ _ => rfl
  cases s.isActive with
  | false => exact confined_pure _
  | true =>
      cases s.isPastExpiry e.now with
      | true => exact (confined_lapse id e.now).bind fun _ => confined_pure _
      | false =>
          exact (confined_flowOf s).bind fun f => (confined_nodeOf f _).bind fun n =>
            confined_pure _

theorem confined_endSession (id reason : String) :
    Confined Effect.IsFinish id (endSession id reason) := by
  refine (confined_session id).bind fun s => ?_
  cases s.isActive with
  | false => exact confined_throw_bind _ _
  | true =>
      refine confined_get_bind (fun e => ?_) fun _ _ => rfl
      refine (confined_change fun s => ?_).bind fun s' => ?_
      · exact Session.follows_ended rfl rfl rfl rfl rfl rfl rfl rfl rfl rfl
      · refine (confined_add _ _).bind fun _ => (confined_count _).bind fun _ => ?_
        exact (confined_emit ..).bind fun _ => confined_pure _

theorem confined_lapseIfDue (id : String) (now : Instant) :
    Confined Effect.IsFinish id (lapseIfDue id now) := by
  refine confined_get_bind (fun e => ?_) fun _ _ => rfl
  cases e.store.get? id with
  | none => exact confined_pure _
  | some s =>
      dsimp only
      split
      · exact (confined_lapse id now).bind fun _ => confined_pure _
      · exact confined_pure _

theorem confined_navigationOf (t : Turn) : Confined may id (navigationOf t) :=
  (confined_served _).bind fun _ => confined_pure _

theorem lockFree_navigationOf (t : Turn) : LockFree (navigationOf t) :=
  lockFree_bind (lockFree_served _) fun _ => lockFree_pure _

/-- The last part of the handling of an input. -/
theorem confined_answered (j : String) (r : Except EngineError Answered) :
    Confined may id (do match ← ofResult r with
      | .inl result => return result
      | .inr (_, status) => throw (.notActive j status) : EngineM Navigation) := by
  refine (confined_ofResult r).bind fun a => ?_
  rcases a with shown | ⟨outcome, status⟩
  · exact confined_pure shown
  · exact confined_throw _

theorem lockFree_answered (j : String) (r : Except EngineError Answered) :
    LockFree (do match ← ofResult r with
      | .inl result => return result
      | .inr (_, status) => throw (.notActive j status) : EngineM Navigation) :=
  (confined_answered j r : Confined Effect.IsFinish j _).lockFree

/-! ## The stages of a turn -/

/-- What a stage does to the session. -/
def Stage.effect? : Stage → Option Effect
  | .recordInput => some .renew
  | .advance => some .move
  | .complete => some .finish
  | .dispatch | .reprompt | .respond => none

/-- The one thing that a stage may do to the session. -/
def Stage.May (σ : Stage) (x : Effect) : Prop := σ.effect? = some x

theorem Stage.May.eq_complete {σ : Stage} (h : σ.May .finish) : σ = .complete := by
  cases σ <;> first | rfl | cases h

theorem Stage.May.eq_recordInput {σ : Stage} (h : σ.May .renew) : σ = .recordInput := by
  cases σ <;> first | rfl | cases h

/-- No stage leads back to the recording of the input. -/
theorem Turn.next?_ne_recordInput (t : Turn) (σ : Stage) : t.next? σ ≠ some .recordInput := by
  intro h
  cases σ with
  | dispatch =>
      rw [Turn.next?, Turn.afterDispatch, Option.some.injEq] at h
      repeat' split at h
      all_goals cases h
  | advance =>
      rw [Turn.next?, Turn.afterAdvance, Option.some.injEq] at h
      split at h <;> cases h
  | _ => cases h

namespace Turn

theorem lockFree_recordInput (t : Turn) : LockFree t.recordInput := by
  refine lockFree_get_bind (fun e => ?_) fun _ _ => rfl
  refine lockFree_bind (lockFree_change _ _) fun s => ?_
  refine lockFree_bind (lockFree_ofOption _ _) fun renewed => ?_
  refine lockFree_bind (lockFree_change _ _) fun s' => ?_
  exact lockFree_bind (fun _ _ => rfl) fun _ => lockFree_pure t

theorem confined_recordInput (t : Turn) :
    Confined Stage.recordInput.May t.sessionId t.recordInput := by
  refine ⟨t.lockFree_recordInput, fun e => ?_⟩
  cases hget : e.store.get? t.sessionId with
  | none =>
      rw [start_recordInput_of_missing hget]
      exact .refl e
  | some s =>
      rw [start_recordInput hget]
      cases hr : s.received? (t.input.getD "") e.now e.settings.sessionTimeout with
      | none =>
          exact .keep hget ⟨rfl, rfl, rfl, rfl, rfl, fun _ => rfl, fun _ => rfl,
            fun hno => absurd rfl hno, fun _ => rfl, fun ha => ha⟩
      | some s' =>
          obtain ⟨expiry, -, rfl⟩ := Session.received?_eq_some hr
          refine (Engine.Touches.keep hget ?_).trans
            (.of_same (Engine.sameService_announce ..) rfl)
          exact ⟨rfl, rfl, rfl, rfl, rfl, fun _ => rfl, fun hno => absurd rfl hno,
            fun hno => absurd rfl hno, fun _ => rfl, fun ha => ha⟩

/-- What the executor is asked is written along with all the rest of the engine. -/
theorem confined_request (t : Turn) (s : Session) : Confined may id (do
    let e ← get
    match interpreter e t.node with
    | .inr _ => return none
    | .inl h =>
      if h.runsAction t.node && e.executor.isSome then
        let request : ActionRequest := ⟨t.node, s⟩
        set { e with requests := e.requests ++ [request] }
        return some ⟨e.requests, request⟩
      else return none : EngineM (Option Pending)) := by
  refine ⟨fun e locks => ?_, fun e => ?_⟩
  · rw [start_bind_of_ok (start_get _), start_bind_of_ok (start_get _),
      show interpreter { e with locks } t.node = interpreter e t.node from rfl]
    cases interpreter e t.node with
    | inr o => rfl
    | inl h =>
        dsimp only
        split <;> rfl
  · rw [start_bind_of_ok (start_get e)]
    cases interpreter e t.node with
    | inr o => exact .refl e
    | inl h =>
        dsimp only
        split
        · exact .of_same ⟨rfl, rfl, rfl, rfl, rfl, rfl, rfl⟩ rfl
        · exact .refl e

theorem confined_ask (t : Turn) : Confined may id t.ask := by
  refine (confined_served _).bind fun s => ?_
  dsimp only
  split
  · exact (confined_emit ..).bind fun _ => t.confined_request s
  · exact t.confined_request s

theorem confined_hear (t : Turn) (pending : Option Pending) : Confined may id (t.hear pending) := by
  refine confined_get_bind (fun e => (confined_served _).bind fun s => ?_) fun _ _ => rfl
  cases interpreter e t.node with
  | inr o => exact (confined_ofResult _).bind fun _ => confined_pure _
  | inl h =>
      dsimp only
      split
      · split
        · exact (confined_count _).bind fun _ => (confined_count _).bind fun _ =>
            (confined_ofResult _).bind fun _ => confined_pure _
        · exact (confined_count _).bind fun _ =>
            (confined_ofResult _).bind fun _ => confined_pure _
      · exact (confined_ofResult _).bind fun _ => confined_pure _

theorem lockFree_ask (t : Turn) : LockFree t.ask :=
  (t.confined_ask : Confined Stage.dispatch.May t.sessionId t.ask).lockFree

theorem lockFree_hear (t : Turn) (pending : Option Pending) : LockFree (t.hear pending) :=
  (t.confined_hear pending : Confined Stage.dispatch.May t.sessionId (t.hear pending)).lockFree

theorem touches_of_ask {t : Turn} {r : Except EngineError (Option Pending)}
    (h : t.ask.start e = (r, e')) : e.Touches may id e' :=
  (t.confined_ask : Confined may id t.ask).touches_of_start h

theorem touches_of_hear {t : Turn} {pending : Option Pending} {r : Except EngineError Turn}
    (h : (t.hear pending).start e = (r, e')) : e.Touches may id e' :=
  (t.confined_hear pending : Confined may id (t.hear pending)).touches_of_start h

theorem confined_dispatch (t : Turn) : Confined may id t.dispatch :=
  t.confined_ask.bind fun pending => t.confined_hear pending

theorem confined_navigate (id : String) (f : Flow) (node : String) :
    Confined Stage.advance.May id (navigate id f node) := by
  refine (confined_nodeOf f _).bind fun n => confined_get_bind (fun e => ?_) fun _ _ => rfl
  have hmove : Stage.advance.May .move := rfl
  refine (confined_change fun s => s.follows_movedTo node e.now hmove).bind fun s => ?_
  exact (confined_count _).bind fun _ => (confined_emit ..).bind fun _ => confined_pure n

theorem confined_advance (t : Turn) : Confined Stage.advance.May t.sessionId t.advance := by
  rw [advance]
  cases t.outcome with
  | none => exact confined_throw _
  | some o =>
      dsimp only
      cases o.target? with
      | none => exact confined_throw _
      | some target =>
          refine (confined_navigate ..).bind fun n => ?_
          exact (confined_change fun s => s.follows_capture _).bind fun _ => confined_pure _

theorem confined_finishSession (id : String) :
    Confined Stage.complete.May id (finishSession id) := by
  refine (confined_served id).bind fun s => ?_
  cases s.isActive with
  | false => exact confined_throw_bind _ _
  | true =>
      refine confined_get_bind (fun e => ?_) fun _ _ => rfl
      refine (confined_change fun s => ?_).bind fun s' => ?_
      · exact Session.follows_ended rfl rfl rfl rfl rfl rfl rfl rfl rfl rfl
      · have hused : Confined (α := Unit) Stage.complete.May id (modify fun e => { e with
            registry := e.registry.countUse s'.flowId e.now }) :=
          ⟨fun _ _ => rfl, fun e => .of_same ⟨rfl, rfl, rfl, rfl, rfl, rfl, rfl⟩ rfl⟩
        refine hused.bind fun _ => (confined_add _ _).bind fun _ => ?_
        exact (confined_count _).bind fun _ => (confined_emit ..).bind fun _ => confined_pure s'

theorem confined_complete (t : Turn) : Confined Stage.complete.May t.sessionId t.complete := by
  have hfinish : ∀ f : Session → Turn, Confined Stage.complete.May t.sessionId (do
      let s ← finishSession t.sessionId
      return f s : EngineM Turn) := fun f =>
    (confined_finishSession _).bind fun s => confined_pure _
  rw [complete]
  cases t.outcome with
  | none => exact hfinish _
  | some o => exact (confined_change fun s => s.follows_capture o.captured).bind fun _ => hfinish _

theorem confined_reprompt (t : Turn) : Confined may id t.reprompt :=
  (confined_served _).bind fun _ => (confined_emit ..).bind fun _ => confined_pure _

theorem confined_respond (t : Turn) : Confined may id t.respond :=
  (confined_served _).bind fun _ => confined_pure _

/-- **Confinement.**  A stage has no part in the locks, touches no session but the
one that is served, and has no effect on it but its own. -/
theorem confined_perform (t : Turn) (σ : Stage) : Confined σ.May t.sessionId (t.perform σ) := by
  cases σ with
  | recordInput => exact t.confined_recordInput
  | dispatch => exact t.confined_dispatch
  | advance => exact t.confined_advance
  | complete => exact t.confined_complete
  | reprompt => exact t.confined_reprompt
  | respond => exact t.confined_respond

end Turn

/-! ## Starting sessions -/

theorem lockFree_openSession (f : Flow) (c : Caller) : LockFree (openSession f c) := by
  refine lockFree_get_bind (fun e => ?_) fun _ _ => rfl
  cases e.store.findLive? c.flowId c.phoneNumber c.ussdCode e.now with
  | some s => exact lockFree_pure _
  | none =>
      have hnew : LockFree (newSession f c) := by
        refine lockFree_get_bind (fun e => ?_) fun _ _ => rfl
        exact lockFree_bind (lockFree_ofOption _ _) fun expiry =>
          lockFree_bind (fun _ _ => rfl) fun _ => lockFree_pure _
      exact lockFree_bind hnew fun s => lockFree_bind (lockFree_ofOption _ _) fun n => lockFree_pure _

theorem lockFree_storeSession (s : Session) : LockFree (storeSession s) := by
  refine lockFree_get_bind (fun e => ?_) fun _ _ => rfl
  refine lockFree_bind (lockFree_ofResult _) fun store => ?_
  exact lockFree_bind (fun _ _ => rfl) fun _ => lockFree_bind (fun _ _ => rfl) fun _ =>
    lockFree_bind (lockFree_count _) fun _ _ _ => rfl

/-! ## What a stage makes of its turn -/

/-- What every program that succeeds gives back. -/
def EngineM.Yields (x : EngineM α) (p : α → Prop) : Prop := ∀ e a, (x.start e).1 = .ok a → p a

theorem EngineM.yields_bind {x : EngineM α} {f : α → EngineM β} {p : β → Prop}
    (hf : ∀ a, Yields (f a) p) : Yields (x >>= f) p := by
  intro e b hb
  rw [start_bind] at hb
  rcases hx : x.start e with ⟨r | a, e'⟩
  · rw [hx] at hb
    cases hb
  · rw [hx] at hb
    exact hf a e' b hb

theorem EngineM.yields_pure {a : α} {p : α → Prop} (h : p a) : Yields (pure a) p := by
  intro e b hb
  cases hb
  exact h

theorem EngineM.yields_throw (err : EngineError) {p : α → Prop} :
    Yields (throw err : EngineM α) p := by
  intro e b hb
  cases hb

/-- The turn after a stage: it serves the same session, stays at its node unless the
stage is a move, and shows what it has shown unless the stage ends it. -/
structure Turn.Continues (t : Turn) (σ : Stage) (t' : Turn) : Prop where
  sessionId : t'.sessionId = t.sessionId
  flow : t'.flow = t.flow
  input : t'.input = t.input
  node : σ ≠ .advance → t'.node = t.node
  hops : t'.hops = if σ = .advance then t.hops + 1 else t.hops
  finished : σ = .complete → t'.isFinished = true
  error : σ = .reprompt → t'.error.isSome = true
  keepsError : σ ≠ .reprompt → t'.error = t.error
  keepsOpen : σ ≠ .complete → t'.isFinished = t.isFinished

namespace Turn

theorem yields_hear (t : Turn) (pending : Option Pending) :
    Yields (t.hear pending) (t.Continues .dispatch) := by
  refine yields_bind fun e => yields_bind fun s => ?_
  have hend : ∀ o : Outcome, Yields (pure { t with
      outcome := some o, metadata := t.metadata.putAll o.metadata.items })
      (t.Continues .dispatch) := fun o =>
    yields_pure ⟨rfl, rfl, rfl, fun _ => rfl, rfl, nofun, nofun, fun _ => rfl, fun _ => rfl⟩
  cases interpreter e t.node with
  | inr o => exact yields_bind hend
  | inl h =>
      dsimp only
      split
      · split
        · exact yields_bind fun _ => yields_bind fun _ => yields_bind hend
        · exact yields_bind fun _ => yields_bind hend
      · exact yields_bind hend

theorem yields_advance (t : Turn) : Yields t.advance (t.Continues .advance) := by
  rw [advance]
  cases t.outcome with
  | none => exact yields_throw _
  | some o =>
      dsimp only
      cases o.target? with
      | none => exact yields_throw _
      | some target =>
          exact yields_bind fun n => yields_bind fun _ =>
            yields_pure ⟨rfl, rfl, rfl, fun hno => absurd rfl hno, rfl,
              fun hσ => Stage.noConfusion hσ, fun hσ => Stage.noConfusion hσ,
              fun _ => rfl, fun _ => rfl⟩

theorem yields_complete (t : Turn) : Yields t.complete (t.Continues .complete) := by
  rw [complete]
  have hend : ∀ s, Yields (pure { t with isFinished := true, prompt := closing (some t.node) s })
      (t.Continues .complete) := fun s =>
    yields_pure ⟨rfl, rfl, rfl, fun _ => rfl, rfl, fun _ => rfl, fun hσ => Stage.noConfusion hσ,
      fun _ => rfl, fun hσ => absurd rfl hσ⟩
  split
  · exact yields_bind fun _ => yields_bind hend
  · exact yields_bind hend

/-- A stage that succeeds leaves a turn that goes on from there. -/
theorem yields_perform (t : Turn) (σ : Stage) : Yields (t.perform σ) (t.Continues σ) := by
  cases σ with
  | recordInput =>
      exact yields_bind fun e => yields_bind fun s => yields_bind fun r => yields_bind fun s' =>
        yields_bind fun _ => yields_pure
          ⟨rfl, rfl, rfl, fun _ => rfl, rfl, nofun, nofun, fun _ => rfl, fun _ => rfl⟩
  | dispatch => exact yields_bind fun pending => t.yields_hear pending
  | advance => exact t.yields_advance
  | complete => exact t.yields_complete
  | reprompt =>
      exact yields_bind fun s => yields_bind fun _ =>
        yields_pure ⟨rfl, rfl, rfl, fun _ => rfl, rfl, nofun, fun _ => rfl,
          fun hσ => absurd rfl hσ, fun _ => rfl⟩
  | respond =>
      exact yields_bind fun s => yields_pure
        ⟨rfl, rfl, rfl, fun _ => rfl, rfl, nofun, nofun, fun _ => rfl, fun _ => rfl⟩

end Turn

end UssdFlows
