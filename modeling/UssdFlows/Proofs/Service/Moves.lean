import UssdFlows.Proofs.Engine.Confined
import UssdFlows.Proofs.Locks.Lines
import UssdFlows.Proofs.Service.Runs

/-!
# What going on comes to

An operation in progress goes on from phase to phase.  This file says once what
each phase can lead to (`Phase.Goes`), in terms of the pieces that the operation
is made of; everything that is said about operations side by side is proved by
cases on it.

A turn goes on by one stage (`Phase.Plays`).  Whatever ends an operation leaves
all the sections that it uses (`Phase.Closes`).
-/

namespace UssdFlows

open EngineM

variable {α : Type} {e e' e₁ : Engine} {v : Visitor}

/-- The session that an operation is about, if there is one already. -/
def Call.session? : Call → Option String
  | .create _ => none
  | .input id _ | .terminate id _ | .expire id _ => some id

/-! ## Sections in use -/

/-- Sections by their keys, with the numbers of the locks that were checked out. -/
abbrev Uses := List (String × Nat)

/-- The section around a turn, besides that of its session. -/
def Purpose.uses : Purpose → Uses
  | .settle c callerLock => [(c.key, callerLock)]
  | .answer => []

/-- A visitor leaves sections, the last one first. -/
def Locks.without (v : Visitor) (t : Locks) (uses : Uses) : Locks :=
  uses.foldr (fun u t => t.quit u.1 u.2 v) t

namespace Phase

/-- The sections that an operation is in or waits for. -/
def uses : Phase → Uses
  | ready _ | finished _ => []
  | opening c _ lock => [(c.key, lock)]
  | settling c callerLock s _ lock => [(c.key, callerLock), (s.id, lock)]
  | entering _ id lock => [(id, lock)]
  | playing purpose lock _ _ t | acting purpose lock _ _ t => purpose.uses ++ [(t.sessionId, lock)]

/-- The sections that an operation is in for certain. -/
def inside : Phase → List String
  | settling c _ _ _ _ => [c.key]
  | playing purpose lock _ _ t | acting purpose lock _ _ t =>
    (purpose.uses ++ [(t.sessionId, lock)]).map Prod.fst
  | _ => []

/-- All sections are left in silence, perhaps some locks are forgotten, and
something is counted. -/
structure Closes (v : Visitor) (uses : Uses) (e e' : Engine) : Prop where
  alike : e.Alike e'
  silent : e.Silent e'
  locks : ∃ keys : List String, e'.locks = keys.foldl Locks.discard (e.locks.without v uses)

theorem closes_of_locks {uses : Uses} (keys : List String) :
    Closes v uses e { e with locks := keys.foldl Locks.discard (e.locks.without v uses) } :=
  ⟨e.alike_locks _, e.silent_locks _, keys, rfl⟩

theorem Closes.alike_right {uses : Uses} (h : Closes v uses e e₁) (halike : e₁.Alike e')
    (hsilent : e₁.Silent e')
    (hlocks : ∃ keys : List String, e'.locks = keys.foldl Locks.discard e₁.locks) :
    Closes v uses e e' := by
  obtain ⟨keys, hkeys⟩ := h.locks
  obtain ⟨more, hmore⟩ := hlocks
  exact ⟨h.alike.trans halike, h.silent.trans hsilent, keys ++ more, by rw [hmore, hkeys, List.foldl_append]⟩

/-! ## Stages -/

/-- An operation performs a stage of its turn, with as many left after it; this
is what becomes of the turn. -/
inductive Plays (e : Engine) : Phase → Purpose → (lock left : Nat) → Stage → Turn →
    Except EngineError Turn → Engine → Prop where
  | exhausted {purpose lock σ t} :
      Plays e (.playing purpose lock 0 σ t) purpose lock 0 σ t (.error .tooManySteps) e
  | stage {purpose lock left σ t r e'} (hσ : σ ≠ .dispatch)
      (h : (t.perform σ).start e = (r, e')) :
      Plays e (.playing purpose lock (left + 1) σ t) purpose lock left σ t r e'
  | unasked {purpose lock left t err e'} (h : t.ask.start e = (.error err, e')) :
      Plays e (.playing purpose lock (left + 1) .dispatch t) purpose lock left .dispatch t
        (.error err) e'
  | hears {purpose lock left t e₁ r e'} (h : t.ask.start e = (.ok none, e₁))
      (h' : (t.hear none).start e₁ = (r, e')) :
      Plays e (.playing purpose lock (left + 1) .dispatch t) purpose lock left .dispatch t r e'
  | answered {purpose lock left pending t r e'} (h : (t.hear (some pending)).start e = (r, e')) :
      Plays e (.acting purpose lock left pending t) purpose lock left .dispatch t r e'

variable {p p' : Phase} {purpose : Purpose} {lock left : Nat} {σ : Stage} {t t' : Turn}
  {r : Except EngineError Turn}

/-- A stage that an operation performs has its own effect on the session and no
other, and none on the locks. -/
theorem Plays.touches (h : Plays e p purpose lock left σ t r e') :
    e.Touches σ.May t.sessionId e' ∧ e'.locks = e.locks := by
  cases h with
  | exhausted => exact ⟨.refl e, rfl⟩
  | stage hσ h =>
      have hc := t.confined_perform σ
      exact ⟨hc.touches_of_start h, hc.lockFree.locks_of_start h⟩
  | unasked h => exact ⟨Turn.touches_of_ask h, t.lockFree_ask.locks_of_start h⟩
  | hears h h' =>
      have hlocks := (t.lockFree_hear none).locks_of_start h'
      exact ⟨(Turn.touches_of_ask h).trans (Turn.touches_of_hear h'),
        hlocks.trans (t.lockFree_ask.locks_of_start h)⟩
  | @answered _ _ _ pending _ _ _ h =>
      exact ⟨Turn.touches_of_hear h, (t.lockFree_hear (some pending)).locks_of_start h⟩

theorem Plays.continues (h : Plays e p purpose lock left σ t (.ok t') e') : t.Continues σ t' := by
  cases h with
  | stage hσ h => exact t.yields_perform σ e t' (by rw [h])
  | hears h h' => exact t.yields_hear none _ t' (by rw [h'])
  | answered h => exact t.yields_hear _ e t' (by rw [h])

/-- The sections of an operation that performs a stage. -/
theorem Plays.uses_eq (h : Plays e p purpose lock left σ t r e') :
    p.uses = purpose.uses ++ [(t.sessionId, lock)] := by
  cases h <;> rfl

/-- Why an input is turned away. -/
def refusal (id : String) : Except EngineError Admission → Option EngineError
  | .ok (.admitted _) => none
  | .ok (.rejected status) => some (.notActive id status)
  | .ok .lapsed => some (.notActive id .expired)
  | .error err => some err

/-- What an operation gives back that has looked for a session and made none. -/
def resumption : Except EngineError Opening → Option (Except EngineError Reply)
  | .ok (.opened ..) => none
  | .ok (.resumed s) => some (.ok (.session s))
  | .error err => some (.error err)

/-- What an operation in progress comes to when it goes on. -/
inductive Goes (v : Visitor) (e : Engine) : Phase → Phase → Engine → Prop where
  | unserved {c} (h : e.registry.get? c.flowId = none) :
      Goes v e (.ready (.create c)) (.finished (.error (.flowNotFound c.flowId none))) e
  | calls {c f} (h : e.registry.get? c.flowId = some f) :
      Goes v e (.ready (.create c)) (.opening c f (e.locks.join c.key v).1)
        { e with locks := (e.locks.join c.key v).2 }
  | asks {call id} (h : call.session? = some id) :
      Goes v e (.ready call) (.entering call id (e.locks.join id v).1)
        { e with locks := (e.locks.join id v).2 }
  | opens {c f lock s t e₁} (h : (openSession f c).start e = (.ok (.opened s t), e₁)) :
      Goes v e (.opening c f lock) (.settling c lock s t (e₁.locks.join s.id v).1)
        { e₁ with locks := (e₁.locks.join s.id v).2 }
  | resumes {c f lock r out e₁ e'} (h : (openSession f c).start e = (r, e₁))
      (hr : resumption r = some out) (hc : Closes v [(c.key, lock)] e₁ e') :
      Goes v e (.opening c f lock) (.finished out) e'
  | stores {c callerLock s t lock e'} (h : (storeSession s).start e = (.ok (), e')) :
      Goes v e (.settling c callerLock s t lock)
        (.playing (.settle c callerLock) lock (Turn.stageLimit t.flow) t.entry t) e'
  | drops {c callerLock s t lock err e₁ e'} (h : (storeSession s).start e = (.error err, e₁))
      (hc : Closes v [(c.key, callerLock), (s.id, lock)] e₁ e') :
      Goes v e (.settling c callerLock s t lock) (.finished (.error err)) e'
  | admits {i text id lock t e'} (h : (admission id text).start e = (.ok (.admitted t), e')) :
      Goes v e (.entering (.input i text) id lock)
        (.playing .answer lock (Turn.stageLimit t.flow) t.entry t) e'
  | refuses {i text id lock a err e₁ e'} (h : (admission id text).start e = (a, e₁))
      (ha : refusal id a = some err) (hc : Closes v [(id, lock)] e₁ e') :
      Goes v e (.entering (.input i text) id lock) (.finished (.error err)) e'
  | ends {i reason id lock r e₁ e'} (h : (endSession id reason).start e = (r, e₁))
      (hc : Closes v [(id, lock)] e₁ e') :
      Goes v e (.entering (.terminate i reason) id lock) (.finished (r.map .session)) e'
  | lapses {i now id lock r e₁ e'} (h : (lapseIfDue id now).start e = (r, e₁))
      (hc : Closes v [(id, lock)] e₁ e') :
      Goes v e (.entering (.expire i now) id lock) (.finished (r.map .truth)) e'
  | strays {c id lock} :
      Goes v e (.entering (.create c) id lock) (.finished (.error .noTarget)) e
  | waits {purpose lock left t pending e'} (h : t.ask.start e = (.ok (some pending), e')) :
      Goes v e (.playing purpose lock (left + 1) .dispatch t)
        (.acting purpose lock left pending t) e'
  | continues {p purpose lock left σ t t' σ' e'} (h : Plays e p purpose lock left σ t (.ok t') e')
      (hn : t'.next? σ = some σ') : Goes v e p (.playing purpose lock left σ' t') e'
  | concludes {p purpose lock left σ t r out e₁ e'} (h : Plays e p purpose lock left σ t r e₁)
      (hn : ∀ t', r = .ok t' → t'.next? σ = none)
      (hc : Closes v (purpose.uses ++ [(t.sessionId, lock)]) e₁ e')
      (hout : ∀ shown s, out = .ok (.navigation shown s) → purpose = .answer ∧ ∃ t', r = .ok t' ∧
        shown.sessionId = t'.sessionId ∧ shown.isFinished = t'.isFinished ∧
        shown.error = t'.error) : Goes v e p (.finished out) e'

/-! ## Ends -/

theorem start_endWith (x : EngineM Reply) (e : Engine) :
    (endWith x).start e = (.ok (.finished (x.start e).1), (x.start e).2) := rfl

theorem start_leaveLock_eq (key : String) (n : Nat) (v : Visitor) (e : Engine) :
    (leaveLock key n v).start e = (.ok (), { e with locks := e.locks.quit key n v }) := rfl

/-- Giving the session back along with what the caller is shown changes nothing. -/
theorem start_concludeInput_served (id : String) (a : Except EngineError Answered) (e : Engine) :
    ∃ out e', (do return Reply.navigation (← concludeInput id a) (← served id) :
        EngineM Reply).start e = (out, e') ∧ e.Alike e' ∧ e.Silent e' ∧
      e'.locks = (forgotten id a).foldl Locks.discard e.locks ∧
      (∀ shown s, out = .ok (.navigation shown s) → concluded id a = .ok shown) ∧
      ∀ err, concluded id a = .error err → out = .error err := by
  obtain ⟨e', hstart, halike, hlocks⟩ := start_concludeInput id a e
  have hsilent := silent_concludeInput id a e
  rw [hstart] at hsilent
  cases hr : concluded id a with
  | error err =>
      rw [hr] at hstart
      refine ⟨.error err, e', start_bind_of_error hstart, halike, hsilent, hlocks, ?_, ?_⟩
      · intro shown s hout
        cases hout
      · rintro err' ⟨⟩
        rfl
  | ok shown =>
      rw [hr] at hstart
      rw [start_bind_of_ok hstart]
      cases hget : e'.store.get? id with
      | none =>
          refine ⟨.error (.store (.notStored id)), e',
            start_bind_of_error (start_served_of_missing hget), halike, hsilent, hlocks, ?_, ?_⟩
          · intro shown' s hout
            cases hout
          · intro err herr
            cases herr
      | some s =>
          refine ⟨.ok (.navigation shown s), e', start_bind_of_ok (start_served_of_stored hget),
            halike, hsilent, hlocks, ?_, ?_⟩
          · rintro shown' s' ⟨⟩
            rfl
          · intro err herr
            cases herr

theorem closes_refuse (v : Visitor) (id : String) (lock : Nat) {a : Except EngineError Answered}
    {err : EngineError} (ha : concluded id a = .error err) (e : Engine) :
    ∃ e', (goInside.refuse v id lock a).start e = (.ok (.finished (.error err)), e') ∧
      Closes v [(id, lock)] e e' ∧
      e'.locks = (forgotten id a).foldl Locks.discard (e.locks.quit id lock v) := by
  have hleft : Closes v [(id, lock)] e { e with locks := e.locks.quit id lock v } :=
    ⟨e.alike_locks _, e.silent_locks _, [], rfl⟩
  obtain ⟨out, e', hstart, halike, hsilent, hlocks, -, herr⟩ :=
    start_concludeInput_served id a { e with locks := e.locks.quit id lock v }
  refine ⟨e', ?_, hleft.alike_right halike hsilent ⟨_, hlocks⟩, hlocks⟩
  rw [goInside.refuse, start_endWith, start_bind_of_ok (start_leaveLock_eq ..)]
  rw [herr err ha] at hstart
  rw [hstart]

/-- Giving back the session of a turn changes nothing. -/
theorem start_servedBy_ofResult (r : Except EngineError Turn) (e : Engine) :
    ∃ r', (do servedBy (← ofResult r) : EngineM Session).start e = (r', e) ∧
      ∀ err, r = .error err → r' = .error err := by
  cases r with
  | error err =>
      refine ⟨.error err, rfl, ?_⟩
      rintro err' ⟨⟩
      rfl
  | ok t =>
      have hok : ∀ (r' : Except EngineError Session) err,
          (.ok t : Except EngineError Turn) = .error err → r' = .error err := by
        intro r' err herr
        cases herr
      cases hget : e.store.get? t.sessionId with
      | none => exact ⟨_, start_served_of_missing hget, hok _⟩
      | some s => exact ⟨_, start_served_of_stored hget, hok _⟩

/-- Showing a turn changes nothing. -/
theorem start_navigationOf_ofResult (r : Except EngineError Turn) (e : Engine) :
    ∃ r', (do navigationOf (← ofResult r) : EngineM Navigation).start e = (r', e) ∧
      ∀ shown, r' = .ok shown → ∃ t, r = .ok t ∧ shown.sessionId = t.sessionId ∧
        shown.isFinished = t.isFinished ∧ shown.error = t.error := by
  cases r with
  | error err => exact ⟨.error err, rfl, nofun⟩
  | ok t =>
      cases hget : e.store.get? t.sessionId with
      | none =>
          exact ⟨.error (.store (.notStored t.sessionId)), start_navigationOf_of_missing hget, nofun⟩
      | some s =>
          refine ⟨.ok ⟨t.sessionId, t.prompt, t.isFinished, t.error, s.status, s.currentNode⟩,
            start_navigationOf hget, ?_⟩
          rintro shown ⟨⟩
          exact ⟨t, rfl, rfl, rfl, rfl⟩

/-- However a turn ends, its sections are left, and what is shown of it is what
the last stage has made of it. -/
theorem closes_conclude (v : Visitor) (id : String) (lock : Nat) (r : Except EngineError Turn)
    (purpose : Purpose) (e : Engine) :
    ∃ out e', ((conclude v id lock r purpose).start e) = (out, e') ∧
      Closes v (purpose.uses ++ [(id, lock)]) e e' ∧
      (∀ shown s, out = .ok (.navigation shown s) → purpose = .answer ∧ ∃ t', r = .ok t' ∧
        shown.sessionId = t'.sessionId ∧ shown.isFinished = t'.isFinished ∧
        shown.error = t'.error) ∧
      ∀ c callerLock err, purpose = .settle c callerLock → r = .error err → out = .error err := by
  cases purpose with
  | settle c callerLock =>
      obtain ⟨r', hr', herr⟩ := start_servedBy_ofResult r e
      rw [conclude, start_bind_of_ok (start_attempt ..), hr',
        start_bind_of_ok (start_leaveLock_eq ..), start_bind_of_ok (start_leaveLock_eq ..)]
      cases r' with
      | error err' =>
          refine ⟨.error err', _, rfl, ⟨e.alike_locks _, e.silent_locks _, [], rfl⟩, ?_, ?_⟩
          · intro shown s hout
            cases hout
          · rintro _ _ err - hr
            cases herr err hr
            rfl
      | ok s =>
          refine ⟨.ok (.session s), _, rfl, ⟨e.alike_locks _, e.silent_locks _, [c.key], rfl⟩, ?_, ?_⟩
          · intro shown s hout
            cases hout
          · rintro _ _ err - hr
            cases herr err hr
  | answer =>
      obtain ⟨r', hr', hshown⟩ := start_navigationOf_ofResult r e
      have hleft : Closes v [(id, lock)] e { e with locks := e.locks.quit id lock v } :=
        ⟨e.alike_locks _, e.silent_locks _, [], rfl⟩
      obtain ⟨out, e', hstart, halike, hsilent, hlocks, hout, -⟩ := start_concludeInput_served id
        (r'.map .inl) { e with locks := e.locks.quit id lock v }
      refine ⟨out, e', ?_, hleft.alike_right halike hsilent ⟨_, hlocks⟩, fun shown s ho => ?_, ?_⟩
      · rw [conclude, start_bind_of_ok (start_attempt ..), hr',
          start_bind_of_ok (start_leaveLock_eq ..)]
        exact hstart
      · have hc := hout shown s ho
        cases r' with
        | error err => cases hc
        | ok shown' =>
            cases hc
            exact ⟨rfl, hshown _ rfl⟩
      · rintro _ _ _ ⟨⟩

/-! ## The relation is what happens -/

theorem goes_afterStage (h : Plays e p purpose lock left σ t r e₁) :
    ∃ p' e', (afterStage v purpose lock left σ t.sessionId r).start e₁ = (.ok p', e') ∧
      Goes v e p p' e' := by
  have hend : (∀ t', r = .ok t' → t'.next? σ = none) → ∃ p' e',
      (endWith (conclude v t.sessionId lock r purpose)).start e₁ = (.ok p', e') ∧
      Goes v e p p' e' := by
    intro hn
    obtain ⟨out, e', hstart, hc, hout, -⟩ := closes_conclude v t.sessionId lock r purpose e₁
    refine ⟨.finished out, e', ?_, .concludes h hn hc hout⟩
    rw [start_endWith, hstart]
  cases r with
  | error err =>
      refine hend ?_
      rintro t' ⟨⟩
  | ok t' =>
      rw [afterStage]
      cases hn : t'.next? σ with
      | none =>
          refine hend ?_
          rintro t'' ⟨⟩
          exact hn
      | some σ' => exact ⟨_, _, rfl, .continues h hn⟩

theorem goes_playStage :
    ∃ p' e', (playStage v purpose lock left σ t).start e = (.ok p', e') ∧
      Goes v e (.playing purpose lock left σ t) p' e' := by
  cases left with
  | zero => exact goes_afterStage .exhausted
  | succ left =>
      rw [playStage]
      by_cases hσ : σ = .dispatch
      · subst hσ
        rw [if_pos rfl, start_bind_of_ok (start_attempt ..)]
        cases hask : t.ask.start e with
        | mk r e₁ =>
            rcases r with err | - | pending
            · exact goes_afterStage (.unasked hask)
            · dsimp only
              rw [start_bind_of_ok (start_attempt ..)]
              exact goes_afterStage (.hears hask rfl)
            · exact ⟨_, _, rfl, .waits hask⟩
      · rw [if_neg hσ, start_bind_of_ok (start_attempt ..)]
        exact goes_afterStage (.stage hσ rfl)

theorem goes_openInside (c : Caller) (f : Flow) (lock : Nat) :
    ∃ p' e', (openInside v c f lock).start e = (.ok p', e') ∧
      Goes v e (.opening c f lock) p' e' := by
  rw [openInside, start_bind_of_ok (start_attempt ..)]
  cases hopen : (openSession f c).start e with
  | mk r e₁ =>
      rcases r with err | s | ⟨s, t⟩
      · exact ⟨_, _, rfl, .resumes hopen rfl (closes_of_locks [])⟩
      · exact ⟨_, _, rfl, .resumes hopen rfl (closes_of_locks [])⟩
      · exact ⟨_, _, rfl, .opens hopen⟩

theorem goes_settleInside (c : Caller) (callerLock : Nat) (s : Session) (t : Turn) (lock : Nat) :
    ∃ p' e', (settleInside v c callerLock s t lock).start e = (.ok p', e') ∧
      Goes v e (.settling c callerLock s t lock) p' e' := by
  rw [settleInside, start_bind_of_ok (start_attempt ..)]
  cases hstore : (storeSession s).start e with
  | mk r e₁ =>
      cases r with
      | ok _ => exact ⟨_, _, rfl, .stores hstore⟩
      | error err =>
          obtain ⟨out, e', hstart, hc, -, herr⟩ := closes_conclude v s.id lock
            (.error err : Except EngineError Turn) (.settle c callerLock) e₁
          have hout := herr c callerLock err rfl rfl
          subst hout
          refine ⟨.finished (.error err), e', ?_, .drops hstore hc⟩
          dsimp only
          rw [start_endWith, hstart]

theorem goes_goInside (call : Call) (id : String) (lock : Nat) :
    ∃ p' e', (goInside v id lock call).start e = (.ok p', e') ∧
      Goes v e (.entering call id lock) p' e' := by
  cases call with
  | create c => exact ⟨_, _, rfl, .strays⟩
  | input i text =>
      rw [goInside, start_bind_of_ok (start_attempt ..)]
      cases hadmission : (admission id text).start e with
      | mk a e₁ =>
          rcases a with err | t | status | -
          · obtain ⟨e', hstart, hc, -⟩ := closes_refuse v id lock (a := .error err) rfl e₁
            exact ⟨_, e', hstart, .refuses hadmission rfl hc⟩
          · exact ⟨_, _, rfl, .admits hadmission⟩
          · obtain ⟨e', hstart, hc, -⟩ :=
              closes_refuse v id lock (a := .ok (.inr (.rejected, status))) rfl e₁
            exact ⟨_, e', hstart, .refuses hadmission rfl hc⟩
          · obtain ⟨e', hstart, hc, -⟩ :=
              closes_refuse v id lock (a := .ok (.inr (.expired, .expired))) rfl e₁
            exact ⟨_, e', hstart, .refuses hadmission rfl hc⟩
  | terminate i reason =>
      rw [goInside, start_endWith, start_bind_of_ok (start_attempt ..),
        start_bind_of_ok (start_leaveLock_eq ..)]
      cases hend : (endSession id reason).start e with
      | mk r e₁ =>
          cases r with
          | error err => exact ⟨_, _, rfl, .ends hend (closes_of_locks [])⟩
          | ok s => exact ⟨_, _, rfl, .ends hend (closes_of_locks [id])⟩
  | expire i now =>
      rw [goInside, start_endWith, start_bind_of_ok (start_attempt ..),
        start_bind_of_ok (start_leaveLock_eq ..)]
      cases hlapse : (lapseIfDue id now).start e with
      | mk r e₁ =>
          rcases r with err | isDone
          · exact ⟨_, _, rfl, .lapses hlapse (closes_of_locks [])⟩
          · cases isDone with
            | false => exact ⟨_, _, rfl, .lapses hlapse (closes_of_locks [])⟩
            | true => exact ⟨_, _, rfl, .lapses hlapse (closes_of_locks [id])⟩

theorem goes_beginCall (call : Call) :
    ∃ p' e', (beginCall v call).start e = (.ok p', e') ∧ Goes v e (.ready call) p' e' := by
  cases call with
  | create c =>
      cases hget : e.registry.get? c.flowId with
      | none =>
          refine ⟨_, _, ?_, .unserved hget⟩
          rw [beginCall, start_bind_of_ok (start_attempt ..), start_currentFlow_of_none hget]
          rfl
      | some f =>
          refine ⟨_, _, ?_, .calls hget⟩
          rw [beginCall, start_bind_of_ok (start_attempt ..), start_currentFlow_of_some hget]
          rfl
  | input id text => exact ⟨_, _, rfl, .asks rfl⟩
  | terminate id reason => exact ⟨_, _, rfl, .asks rfl⟩
  | expire id now => exact ⟨_, _, rfl, .asks rfl⟩

/-- **Going on.**  An operation that is not over goes on to a next phase, without a
failure of its own. -/
theorem goes_step (p : Phase) (hp : p.isFinished = false) (v : Visitor) (e : Engine) :
    ∃ p' e', (p.step v).start e = (.ok p', e') ∧ Goes v e p p' e' := by
  cases p with
  | ready call => exact goes_beginCall call
  | opening c f lock => exact goes_openInside c f lock
  | settling c callerLock s t lock => exact goes_settleInside c callerLock s t lock
  | entering call id lock => exact goes_goInside call id lock
  | playing purpose lock left stage t => exact goes_playStage
  | acting purpose lock left pending t =>
      rw [step, start_bind_of_ok (start_attempt ..)]
      exact goes_afterStage (.answered rfl)
  | finished r => cases hp

/-! ## What an operation may do to a session -/

/-- The session whose section an operation is in, or waits for. -/
def served? : Phase → Option String
  | entering _ id _ => some id
  | playing _ _ _ _ t | acting _ _ _ _ t => some t.sessionId
  | _ => none

/-- What an operation may do to the session when it goes on. -/
def May : Phase → Effect → Prop
  | entering .. => Effect.IsFinish
  | playing _ _ _ σ _ => σ.May
  | _ => fun _ => False

theorem Plays.may (h : Plays e p purpose lock left σ t r e') :
    e.Touches p.May t.sessionId e' := by
  have htouches := h.touches.1
  cases h with
  | answered _ => exact htouches.mono fun x hx => absurd hx nofun
  | _ => exact htouches

theorem Plays.served?_eq (h : Plays e p purpose lock left σ t r e') :
    p.served? = some t.sessionId := by
  cases h <;> rfl

/-- Inside the section of a session an operation changes no other session, and its
own in one way only. -/
theorem Goes.touches {id : String} (hg : Goes v e p p' e') (h : p.served? = some id) :
    e.Touches p.May id e' := by
  cases hg with
  | @admits i text j lock t _ hadmission =>
      cases h
      exact (confined_admission id text).touches_of_start hadmission
  | @refuses i text j lock a err e₁ _ hadmission _ hc =>
      cases h
      exact ((confined_admission id text).touches_of_start hadmission).trans hc.alike.touches
  | @ends i reason j lock r e₁ _ hend hc =>
      cases h
      exact ((confined_endSession id reason).touches_of_start hend).trans hc.alike.touches
  | @lapses i now j lock r e₁ _ hlapse hc =>
      cases h
      exact ((confined_lapseIfDue id now).touches_of_start hlapse).trans hc.alike.touches
  | strays => exact .refl e
  | @waits purpose lock left t pending _ hask =>
      cases h
      exact Turn.touches_of_ask hask
  | continues hplays _ =>
      have hid := Option.some.inj (hplays.served?_eq.symm.trans h)
      exact hid ▸ hplays.may
  | @concludes _ purpose lock left σ t r out e₁ _ hplays _ hc _ =>
      have hid := Option.some.inj (hplays.served?_eq.symm.trans h)
      exact hid ▸ hplays.may.trans hc.alike.touches
  | _ => cases h

theorem finished_of_isFinished {p : Phase} (h : p.isFinished = true) : ∃ r, p = .finished r := by
  cases p with
  | finished r => exact ⟨r, rfl⟩
  | _ => cases h

/-- An operation that can go on is not over. -/
theorem not_isFinished_of_canStep {p : Phase} (h : p.canStep v e = true) :
    p.isFinished = false := by
  rw [canStep, Bool.and_eq_true, Bool.not_eq_true'] at h
  exact h.1

end Phase

/-! ## Moves -/

/-- Publishing counts a verdict, and may change the registry, but nothing else. -/
theorem start_publish (f : Flow) (e : Engine) :
    ∃ e₁ registry, e.Alike e₁ ∧ e₁.locks = e.locks ∧
      ((Operation.publish f).perform.start e).2 = { e₁ with registry } := by
  have hexamine : ∃ report e₁, (examine f).start e = (.ok report, e₁) ∧ e.Alike e₁ ∧
      e₁.locks = e.locks := ⟨_, _, rfl, e.alike_tally _ _, rfl⟩
  obtain ⟨report, e₁, hstart, halike, hlocks⟩ := hexamine
  rw [Operation.perform, publishFlow, start_bind, start_bind_of_ok hstart]
  cases report.isValid with
  | false => exact ⟨e₁, e₁.registry, halike, hlocks, rfl⟩
  | true => exact ⟨e₁, (e₁.registry.publish f).2, halike, hlocks, rfl⟩

/-- Publishing leaves the stored sessions alone. -/
theorem store_publish (f : Flow) (e : Engine) :
    ((Operation.publish f).perform.start e).2.store = e.store := by
  obtain ⟨e₁, registry, halike, -, hstart⟩ := start_publish f e
  rw [hstart]
  exact halike.store

namespace Service

/-- What may happen to a service next: something that takes no time happens at
once, or an operation begins or goes on. -/
inductive Move where
  | turnClock (now : Instant)
  | publish (f : Flow)
  | drop (retention : Int) (now : Instant)
  | begin (call : Call)
  | proceed (i : Nat)

/-- Makes a move. -/
def make (w : Service) : Move → Service
  | .turnClock now => w.perform (.turnClock now)
  | .publish f => w.perform (.publish f)
  | .drop retention now => w.perform (.drop retention now)
  | .begin call => w.begin call
  | .proceed i => w.proceed i

/-- Makes moves one after another. -/
def after (w : Service) (ms : List Move) : Service := ms.foldl make w

/-- Moves are steps, so what holds in all reachable states holds after every run. -/
theorem step_make (w : Service) (m : Move) : Step w (w.make m) := by
  cases m with
  | turnClock now => exact .perform w _
  | publish f => exact .perform w _
  | drop retention now => exact .perform w _
  | begin call => exact .begin w call
  | proceed i => exact .proceed w i

/-- The tasks when an operation has begun. -/
theorem begin_cases {w : Service} {call : Call} {i : Nat} {t : Task}
    (h : (w.begin call).tasks[i]? = some t) :
    w.tasks[i]? = some t ∨ i = w.tasks.length ∧ t = ⟨w.tasks.length + 1, .ready call⟩ := by
  rw [Service.begin, List.getElem?_append] at h
  split at h
  · exact Or.inl h
  · rename_i hi
    rw [List.getElem?_singleton] at h
    split at h
    · exact Or.inr ⟨by omega, (Option.some.inj h).symm⟩
    · cases h

/-- The tasks when one of them has gone on. -/
theorem set_cases {ts : List Task} {i j : Nat} {t u : Task} (h : (ts.set i t)[j]? = some u) :
    (j = i ∧ u = t) ∨ (j ≠ i ∧ ts[j]? = some u) := by
  rw [List.getElem?_set] at h
  split at h
  · rename_i hij
    split at h
    · exact Or.inl ⟨hij.symm, (Option.some.inj h).symm⟩
    · cases h
  · rename_i hij
    exact Or.inr ⟨Ne.symm hij, h⟩

/-! ## Notes on a run -/

/-- What is noted when a move is made: something whenever an operation in progress
goes on. -/
def noted (note : Nat → Task → Engine → List α) (w : Service) : Move → List α
  | .proceed i =>
    match w.tasks[i]? with
    | some t => if t.phase.canStep t.visitor w.engine then note i t w.engine else []
    | none => []
  | _ => []

/-- All that is noted during a run. -/
def log (note : Nat → Task → Engine → List α) : Service → List Move → List α
  | _, [] => []
  | w, m :: ms => noted note w m ++ log note (w.make m) ms

theorem log_append (note : Nat → Task → Engine → List α) (w : Service) (ms ms' : List Move) :
    w.log note (ms ++ ms') = w.log note ms ++ (w.after ms).log note ms' := by
  induction ms generalizing w with
  | nil => rfl
  | cons m ms ih =>
      rw [List.cons_append, log, log, ih, List.append_assoc]
      rfl

theorem after_append (w : Service) (ms ms' : List Move) :
    w.after (ms ++ ms') = (w.after ms).after ms' := List.foldl_append ..

/-- What becomes of a service when the task at some place can go on. -/
theorem proceed_of_canStep {w : Service} {i : Nat} {t : Task} {p : Phase} {e' : Engine}
    (ht : w.tasks[i]? = some t) (hcan : t.phase.canStep t.visitor w.engine = true)
    (hstart : (t.phase.step t.visitor).start w.engine = (.ok p, e')) :
    w.proceed i = { w with engine := e', tasks := w.tasks.set i { t with phase := p } } := by
  rw [proceed, ht]
  simp only [Task.step, if_pos hcan, hstart]

theorem noted_of_canStep {w : Service} {i : Nat} {t : Task} (ht : w.tasks[i]? = some t)
    (hcan : t.phase.canStep t.visitor w.engine = true) (note : Nat → Task → Engine → List α) :
    noted note w (.proceed i) = note i t w.engine := by
  rw [noted, ht]
  exact if_pos hcan

/-- What going on with the task at some place comes to: nothing happens, or the
task goes on to a next phase. -/
theorem proceed_cases (w : Service) (i : Nat) :
    (w.proceed i = w ∧ ∀ {β : Type} (note : Nat → Task → Engine → List β),
      noted note w (.proceed i) = []) ∨
    ∃ t p e', w.tasks[i]? = some t ∧ t.phase.canStep t.visitor w.engine = true ∧
      (t.phase.step t.visitor).start w.engine = (.ok p, e') ∧
      t.phase.Goes t.visitor w.engine p e' ∧
      w.proceed i = { w with engine := e', tasks := w.tasks.set i { t with phase := p } } ∧
      ∀ {β : Type} (note : Nat → Task → Engine → List β),
        noted note w (.proceed i) = note i t w.engine := by
  cases ht : w.tasks[i]? with
  | none =>
      refine Or.inl ⟨?_, fun note => ?_⟩
      · rw [proceed, ht]
      · rw [noted, ht]
  | some t =>
      by_cases hcan : t.phase.canStep t.visitor w.engine = true
      · obtain ⟨p, e', hstart, hgoes⟩ :=
          t.phase.goes_step (Phase.not_isFinished_of_canStep hcan) t.visitor w.engine
        exact Or.inr ⟨t, p, e', rfl, hcan, hstart, hgoes, proceed_of_canStep ht hcan hstart,
          noted_of_canStep ht hcan⟩
      · refine Or.inl ⟨?_, fun note => ?_⟩
        · obtain ⟨hi, hti⟩ := List.getElem?_eq_some_iff.1 ht
          have hsame : w.tasks.set i t = w.tasks := by
            rw [← hti]
            exact List.set_getElem_self hi
          rw [proceed, ht]
          simp only [Task.step, if_neg hcan, hsame]
        · rw [noted, ht]
          exact if_neg hcan

end Service

end UssdFlows
