import UssdFlows.Proofs.Service.Tales

/-!
# What is left of the locks when an operation is over

An operation leaves its sections at its end and forgets the locks of some of them: who
has started a session forgets the lock of its caller, and who has ended a session forgets
that of the session.  A lock that is not forgotten stays, and it is good for something as
long as its session is active.

The other locks that stay are *abandoned* (`Phase.abandons`).  They are those of callers
who have a live session already or for whom none could be started, those of sessions that
were not active when an operation went in, and that of a session that has not outlived the
turn which settles it.

For each way in which an operation can be over this file says which locks are forgotten
(`Phase.Leaves`); `Phase.Goes.leaves` puts them together.
-/

namespace UssdFlows

open EngineM

variable {e e' e₁ : Engine} {v : Visitor} {id key : String} {s : Session}

/-! ## Forgetting several locks -/

namespace Locks

variable {l : Locks} {keys : List String}

theorem number?_discards_of_not_mem (l : Locks) (h : key ∉ keys) :
    (keys.foldl discard l).number? key = l.number? key := by
  induction keys generalizing l with
  | nil => rfl
  | cons k rest ih =>
      rw [List.mem_cons, not_or] at h
      rw [List.foldl_cons, ih _ h.2, number?_discard_of_ne _ h.1]

/-- A lock at which nobody stands can be forgotten. -/
theorem Neat.number?_discards (h : l.Neat) (hline : l.line key = []) (hkey : key ∈ keys) :
    (keys.foldl Locks.discard l).number? key = none := by
  induction keys generalizing l with
  | nil => exact absurd hkey List.not_mem_nil
  | cons k rest ih =>
      rw [List.foldl_cons]
      by_cases hrest : key ∈ rest
      · exact ih (h.discard k) ((line_discard h k key).trans hline) hrest
      · rcases List.mem_cons.1 hkey with rfl | hkey
        · rw [number?_discards_of_not_mem _ hrest]
          refine number?_discard ?_
          rw [h.counted, hline, List.length_nil]
        · exact absurd hkey hrest

end Locks

/-! ## Sessions that are over -/

namespace Engine

/-- A session that has been kept as one that is over is not active. -/
theorem hasActive_keep_of_over (e : Engine) (hid : s.id = id) (hover : s.isActive = false) :
    (e.keep s).hasActive id = false := by
  rw [hasActive, get?_keep, if_pos hid]
  exact hover

theorem hasActive_finished (hid : s.id = id) : (e.finished s).hasActive id = false :=
  e.hasActive_keep_of_over (s := s.finishedAt e.now) hid rfl

theorem hasActive_lapsed (hid : s.id = id) {now : Instant} :
    (e.lapsed s now).hasActive id = false :=
  e.hasActive_keep_of_over (s := s.expiredAt now) hid rfl

theorem hasActive_terminated (hid : s.id = id) {reason : String} :
    (e.terminated s reason).hasActive id = false :=
  e.hasActive_keep_of_over (s := s.terminatedAt reason e.now) hid rfl

theorem hasActive_congr (h : e'.store = e.store) (id : String) :
    e'.hasActive id = e.hasActive id := by
  rw [hasActive, hasActive, h]

end Engine

/-- Completing the session of a turn succeeds while it is active, and ends it. -/
theorem Turn.start_complete_of_isActive {t : Turn} (hget : e.store.get? t.sessionId = some s)
    (ha : s.isActive = true) : ∃ t' e', (t.perform .complete).start e = (.ok t', e') ∧
      e'.hasActive t.sessionId = false := by
  have hid : s.id = t.sessionId := KeyedList.key_of_find? hget
  cases ho : t.outcome with
  | none =>
      have hstart : (t.perform .complete).start e = (.ok { t with
          isFinished := true, prompt := closing (some t.node) (s.finishedAt e.now) },
          e.finished s) := by
        rw [perform, complete, ho]
        simp only [start_bind, start_pure, start_finishSession hget ha]
      exact ⟨_, _, hstart, Engine.hasActive_finished hid⟩
  | some o =>
      exact ⟨_, e.finished (s.capture o.captured), start_complete hget ho ha,
        Engine.hasActive_finished hid⟩

namespace Phase

variable {p p' : Phase} {purpose : Purpose} {lock callerLock left : Nat} {σ : Stage}
  {t t' : Turn} {c : Caller} {call : Call} {r : Except EngineError Turn}
  {out : Except EngineError Reply}

/-! ## Plain turns -/

/-- Nothing is to be shown yet of the turn that an operation is in. -/
def IsPlain : Phase → Prop
  | settling _ _ _ t _ | playing _ _ _ _ t | acting _ _ _ _ t => t.IsPlain
  | _ => True

theorem Plays.isPlain (hp : Plays e p purpose lock left σ t r e') (h : p.IsPlain) : t.IsPlain := by
  cases hp <;> exact h

/-- Only the last stage of a turn shows something. -/
theorem Goes.isPlain (hg : Goes v e p p' e') (h : p.IsPlain) : p'.IsPlain := by
  cases hg with
  | opens hopen =>
      obtain ⟨-, -, expiry, n, -, -, rfl⟩ := openSession_opened hopen
      exact ⟨rfl, rfl⟩
  | stores _ => exact h
  | admits hadmission =>
      obtain ⟨-, s, f, n, -, -, -, -, rfl⟩ := admission_admitted hadmission
      exact ⟨rfl, rfl⟩
  | waits _ => exact h
  | @continues _ _ _ _ σ t t' σ' _ hplays hn =>
      obtain ⟨herror, hopen⟩ := hplays.isPlain h
      have hgoesOn : σ ≠ .complete ∧ σ ≠ .reprompt := by
        constructor <;> rintro rfl <;> cases hn
      have hc := hplays.continues
      exact ⟨(hc.keepsError hgoesOn.2).trans herror, (hc.keepsOpen hgoesOn.1).trans hopen⟩
  | _ => trivial

/-- The last stage of a turn completes its session and shows no error, or it leaves the
session active. -/
theorem Plays.ends (hp : Plays e p purpose lock left σ t r e₁) (ha : p.Attends e)
    (hplain : p.IsPlain) (hn : ∀ t', r = .ok t' → t'.next? σ = none) :
    (∃ t', r = .ok t' ∧ (t'.error = none ∧ t'.isFinished = true) ∧
        e₁.hasActive t.sessionId = false) ∨
      e₁.hasActive t.sessionId = true ∧
        ∀ t', r = .ok t' → ¬ (t'.error = none ∧ t'.isFinished = true) := by
  have hactive := hp.attends ha
  obtain ⟨herror, hopen⟩ := hp.isPlain hplain
  by_cases hσ : σ = .complete
  · subst hσ
    obtain ⟨s, hget, hs⟩ := Engine.exists_of_hasActive hactive
    cases hp with
    | exhausted =>
        refine Or.inr ⟨hactive, ?_⟩
        rintro t' ⟨⟩
    | stage _ hstart =>
        obtain ⟨t', e'', hcomplete, hover⟩ := Turn.start_complete_of_isActive hget hs
        obtain ⟨rfl, rfl⟩ := Prod.mk.inj (hstart.symm.trans hcomplete)
        have hc := t.yields_perform .complete e t' (by rw [hstart])
        exact Or.inl ⟨t', rfl, ⟨(hc.keepsError nofun).trans herror, hc.finished rfl⟩, hover⟩
  · refine Or.inr ⟨hp.touches.1.keeps_hasActive (fun hmay => hσ hmay.eq_complete) hactive, ?_⟩
    rintro t' rfl ⟨hnone, hfinished⟩
    have hc := hp.continues
    by_cases hreprompt : σ = .reprompt
    · have hsome := hc.error hreprompt
      rw [hnone] at hsome
      cases hsome
    · rw [hc.keepsOpen hσ, hopen] at hfinished
      cases hfinished

/-! ## What an operation leaves -/

/-- Whether the lock of a section is good for nothing any more that an operation, when it
is over, has not forgotten; this depends on the engine before and after its last step and
on what it gives back. -/
def abandons (e e' : Engine) (out : Except EngineError Reply) : Phase → String → Bool
  | opening .., _ => true
  | settling c .., key | playing (.settle c _) .., key | acting (.settle c _) .., key =>
    if key = c.key then !out.isOk else !e'.hasActive key
  | entering .., key => !e.hasActive key
  | _, _ => false

/-- An operation that is over has left its sections and forgotten the locks of some of
them.  It keeps those of sessions that are active then, and those that it abandons. -/
structure Leaves (v : Visitor) (e : Engine) (p : Phase) (out : Except EngineError Reply)
    (e' : Engine) (keys : List String) : Prop where
  locks : e'.locks = keys.foldl Locks.discard (e.locks.without v p.uses)
  own : ∀ key ∈ keys, key ∈ p.uses.map Prod.fst
  kept : ∀ key ∈ p.uses.map Prod.fst,
    key ∉ keys ↔ e'.hasActive key = true ∨ p.abandons e e' out key = true
  abandoned : ∀ key ∈ p.uses.map Prod.fst,
    p.abandons e e' out key = true → e'.hasActive key = false

/-- The lock of a session is kept where nothing is done to the session. -/
theorem leaves_entering_of_store (hlocks : e'.locks = e.locks.quit id lock v)
    (hstore : e'.store = e.store) : Leaves v e (.entering call id lock) out e' [] where
  locks := hlocks
  own := fun key hkey => absurd hkey List.not_mem_nil
  kept := fun key _ => by
    rw [Engine.hasActive_congr hstore, abandons]
    cases e.hasActive key <;> simp
  abandoned := fun key _ h => by
    rw [Engine.hasActive_congr hstore]
    simpa [abandons] using h

/-- The lock of a session is forgotten by whoever ends the session. -/
theorem leaves_entering_of_over (hlocks : e'.locks = (e.locks.quit id lock v).discard id)
    (ha : e.hasActive id = true) (hover : e'.hasActive id = false) :
    Leaves v e (.entering call id lock) out e' [id] where
  locks := hlocks
  own := fun key hkey => hkey
  kept := fun key hkey => by
    rcases List.mem_singleton.1 hkey with rfl
    simp [abandons, ha, hover]
  abandoned := fun key hkey _ => by
    rcases List.mem_singleton.1 hkey with rfl
    exact hover

/-- The lock of a caller is kept by whoever looks for a session and starts none. -/
theorem leaves_opening {f : Flow} (hlocks : e'.locks = e.locks.quit c.key lock v)
    (hcaller : e'.hasActive c.key = false) : Leaves v e (.opening c f lock) out e' [] where
  locks := hlocks
  own := fun key hkey => absurd hkey List.not_mem_nil
  kept := fun key _ => by simp [abandons]
  abandoned := fun key hkey _ => by
    rcases List.mem_singleton.1 hkey with rfl
    exact hcaller

/-! ### Turns that settle a session -/

theorem locks_conclude_settle (v : Visitor) (id : String) (lock : Nat)
    (r : Except EngineError Turn) (c : Caller) (callerLock : Nat) (e : Engine)
    (h : (conclude v id lock r (.settle c callerLock)).start e = (out, e')) :
    e'.locks = (if out.isOk then [c.key] else []).foldl Locks.discard
      (e.locks.without v [(c.key, callerLock), (id, lock)]) := by
  obtain ⟨r', hr', -⟩ := start_servedBy_ofResult r e
  rw [conclude, start_bind_of_ok (start_attempt ..), hr',
    start_bind_of_ok (start_leaveLock_eq ..), start_bind_of_ok (start_leaveLock_eq ..)] at h
  cases r' with
  | error err =>
      cases h
      rfl
  | ok s =>
      cases h
      rfl

/-- The lock of a caller is forgotten once a session is started for him. -/
theorem leaves_settle (hlocks : e₁.locks = e.locks)
    (hconclude : (conclude v id lock r (.settle c callerLock)).start e₁ = (out, e'))
    (huses : p.uses = [(c.key, callerLock), (id, lock)])
    (habandons : ∀ key, p.abandons e e' out key =
      if key = c.key then !out.isOk else !e'.hasActive key)
    (hcaller : e'.hasActive c.key = false) :
    Leaves v e p out e' (if out.isOk then [c.key] else []) where
  locks := by
    rw [huses, ← hlocks]
    exact locks_conclude_settle v id lock r c callerLock e₁ hconclude
  own := fun key hkey => by
    rw [huses]
    cases hok : out.isOk with
    | true =>
        rw [hok, if_pos rfl] at hkey
        rw [List.mem_singleton.1 hkey]
        exact List.mem_cons_self ..
    | false =>
        rw [hok, if_neg Bool.false_ne_true] at hkey
        exact absurd hkey List.not_mem_nil
  kept := fun key hkey => by
    rw [habandons]
    by_cases hkey' : key = c.key
    · subst hkey'
      cases hok : out.isOk <;> simp [hcaller]
    · cases hok : out.isOk <;> simp [hkey']
  abandoned := fun key _ h => by
    rw [habandons] at h
    by_cases hkey' : key = c.key
    · rw [hkey']
      exact hcaller
    · rw [if_neg hkey', Bool.not_eq_true'] at h
      exact h

/-! ### Turns that answer an input -/

theorem locks_conclude_answer (v : Visitor) (id : String) (lock : Nat)
    (r : Except EngineError Turn) (e : Engine) {r' : Except EngineError Navigation}
    (hr' : (do navigationOf (← ofResult r) : EngineM Navigation).start e = (r', e))
    (h : (conclude v id lock r .answer).start e = (out, e')) :
    e'.locks = (forgotten id (r'.map .inl)).foldl Locks.discard (e.locks.quit id lock v) := by
  obtain ⟨out', e'', hstart, -, -, hlocks, -⟩ := start_concludeInput_served id (r'.map .inl)
    { e with locks := e.locks.quit id lock v }
  rw [conclude, start_bind_of_ok (start_attempt ..), hr',
    start_bind_of_ok (start_leaveLock_eq ..)] at h
  cases h.symm.trans hstart
  exact hlocks

/-- The lock of a session is forgotten with an answer that finishes it. -/
theorem forgotten_shown (id : String) (shown : Navigation) :
    forgotten id (.ok (.inl shown)) =
      if shown.error = none ∧ shown.isFinished = true then [id] else [] := by
  obtain ⟨sessionId, prompt, isFinished, error, status, node⟩ := shown
  cases error <;> cases isFinished <;> rfl

/-- The lock of a session is forgotten with a turn that completes it, and kept otherwise. -/
theorem leaves_answer (hp : Plays e p .answer lock left σ t r e₁) (ha : p.Attends e)
    (hplain : p.IsPlain) (hn : ∀ t', r = .ok t' → t'.next? σ = none)
    (hconclude : (conclude v t.sessionId lock r .answer).start e₁ = (out, e'))
    (hstore : e'.store = e₁.store) : ∃ keys, Leaves v e p out e' keys := by
  have huses : p.uses = [(t.sessionId, lock)] := hp.uses_eq
  have habandons : ∀ key, p.abandons e e' out key = false := fun key => by cases hp <;> rfl
  obtain ⟨s, hget, -⟩ := Engine.exists_of_hasActive (hp.attends ha)
  obtain ⟨s', hget', -⟩ := hp.touches.1.stays s hget
  have hshown : ∀ {t'}, r = .ok t' → e'.locks = (if t'.error = none ∧ t'.isFinished = true then
      [t.sessionId] else []).foldl Locks.discard (e.locks.quit t.sessionId lock v) := by
    rintro t' rfl
    have hstored : e₁.store.get? t'.sessionId = some s' := by
      rw [hp.continues.sessionId]
      exact hget'
    rw [locks_conclude_answer v t.sessionId lock (.ok t') e₁ (start_navigationOf hstored) hconclude,
      hp.touches.2]
    exact congrArg _ (forgotten_shown ..)
  rcases hp.ends ha hplain hn with ⟨t', hr, hdone, hover⟩ | ⟨hactive, hopen⟩
  · refine ⟨[t.sessionId], ?_, ?_, ?_, ?_⟩
    · rw [hshown hr, if_pos hdone, huses]
      rfl
    · rw [huses]
      exact fun key hkey => hkey
    · intro key hkey
      rw [huses] at hkey
      rw [habandons, List.mem_singleton.1 hkey, Engine.hasActive_congr hstore, hover]
      simp
    · intro key _ h
      rw [habandons] at h
      cases h
  · refine ⟨[], ?_, fun key hkey => absurd hkey List.not_mem_nil, ?_, ?_⟩
    · rw [huses]
      cases r with
      | error err =>
          rw [locks_conclude_answer v t.sessionId lock _ e₁ rfl hconclude, hp.touches.2]
          rfl
      | ok t' =>
          rw [hshown rfl, if_neg (hopen t' rfl)]
          rfl
    · intro key hkey
      rw [huses] at hkey
      rw [List.mem_singleton.1 hkey, Engine.hasActive_congr hstore, hactive]
      simp
    · intro key _ h
      rw [habandons] at h
      cases h

/-! ## All ways of ending -/

/-- **Leaving.**  However an operation ends, it keeps the locks of the sessions that are
active then and those that it abandons, and no others. -/
theorem Goes.leaves (hg : Goes v e p (.finished out) e')
    (hstart : (p.step v).start e = (.ok (.finished out), e')) (hproper : p.Proper)
    (ha : p.Attends e) (hplain : p.IsPlain) (hcallers : ∀ c : Caller, e'.hasActive c.key = false) :
    ∃ keys, Leaves v e p out e' keys := by
  cases hg with
  | unserved _ =>
      exact ⟨[], rfl, fun key hkey => absurd hkey List.not_mem_nil,
        fun key hkey => absurd hkey List.not_mem_nil, fun key hkey => absurd hkey List.not_mem_nil⟩
  | @resumes c f lock r _ e₁ _ hopen hr _ =>
      have hlocks := (lockFree_openSession f c).locks_of_start hopen
      rw [step, openInside, start_bind_of_ok (start_attempt ..), hopen] at hstart
      refine ⟨[], leaves_opening ?_ (hcallers c)⟩
      rcases r with err | s | ⟨s, t⟩
      · cases hstart
        rw [← hlocks]
        rfl
      · cases hstart
        rw [← hlocks]
        rfl
      · cases hr
  | @drops c callerLock s t lock err e₁ _ hstore _ =>
      have hlocks := (lockFree_storeSession s).locks_of_start hstore
      rw [step, settleInside, start_bind_of_ok (start_attempt ..), hstore] at hstart
      dsimp only at hstart
      rw [start_endWith] at hstart
      obtain ⟨hout, rfl⟩ := Prod.mk.inj hstart
      have hconclude : (conclude v s.id lock (.error err) (.settle c callerLock)).start e₁ =
          (.error err, _) := Prod.ext (by simpa using hout) rfl
      exact ⟨_, leaves_settle hlocks hconclude rfl (fun _ => rfl) (hcallers c)⟩
  | @refuses i text id lock a err e₁ _ hadmission hrefusal _ =>
      rw [step, goInside, start_bind_of_ok (start_attempt ..), hadmission] at hstart
      rcases admission_cases hadmission with
        ⟨t, rfl, -⟩ | ⟨rfl, ⟨err', rfl⟩ | ⟨status, rfl⟩⟩ | ⟨s, rfl, hget, hs, -, rfl⟩
      · cases hrefusal
      · obtain ⟨e'', hrefuse, hc, hlocks⟩ :=
          closes_refuse v id lock (a := .error err') rfl e₁
        obtain ⟨-, rfl⟩ := Prod.mk.inj (hstart.symm.trans hrefuse)
        exact ⟨[], leaves_entering_of_store hlocks hc.alike.store⟩
      · obtain ⟨e'', hrefuse, hc, hlocks⟩ :=
          closes_refuse v id lock (a := .ok (.inr (.rejected, status))) rfl e₁
        obtain ⟨-, rfl⟩ := Prod.mk.inj (hstart.symm.trans hrefuse)
        exact ⟨[], leaves_entering_of_store hlocks hc.alike.store⟩
      · obtain ⟨e'', hrefuse, hc, hlocks⟩ :=
          closes_refuse v id lock (a := .ok (.inr (.expired, .expired))) rfl (e.lapsed s e.now)
        obtain ⟨-, rfl⟩ := Prod.mk.inj (hstart.symm.trans hrefuse)
        refine ⟨[id], leaves_entering_of_over hlocks (Engine.hasActive_of_stored hget hs) ?_⟩
        rw [Engine.hasActive_congr hc.alike.store]
        exact Engine.hasActive_lapsed (KeyedList.key_of_find? hget)
  | @ends i reason id lock r e₁ _ hend _ =>
      rw [step, goInside, start_endWith, start_bind_of_ok (start_attempt ..),
        start_bind_of_ok (start_leaveLock_eq ..), hend] at hstart
      rcases endSession_cases hend with ⟨rfl, err, rfl⟩ | ⟨s, hget, hs, rfl, rfl⟩
      · obtain ⟨-, rfl⟩ := Prod.mk.inj hstart
        exact ⟨[], leaves_entering_of_store rfl rfl⟩
      · obtain ⟨-, rfl⟩ := Prod.mk.inj hstart
        exact ⟨[id], leaves_entering_of_over rfl (Engine.hasActive_of_stored hget hs)
          (Engine.hasActive_terminated (KeyedList.key_of_find? hget))⟩
  | @lapses i now id lock r e₁ _ hlapse _ =>
      rw [step, goInside, start_endWith, start_bind_of_ok (start_attempt ..),
        start_bind_of_ok (start_leaveLock_eq ..), hlapse] at hstart
      rcases lapseIfDue_cases hlapse with ⟨rfl, rfl⟩ | ⟨s, hget, hs, -, rfl, rfl⟩
      · obtain ⟨-, rfl⟩ := Prod.mk.inj hstart
        exact ⟨[], leaves_entering_of_store rfl rfl⟩
      · obtain ⟨-, rfl⟩ := Prod.mk.inj hstart
        exact ⟨[id], leaves_entering_of_over rfl (Engine.hasActive_of_stored hget hs)
          (Engine.hasActive_lapsed (KeyedList.key_of_find? hget))⟩
  | strays => cases hproper
  | @concludes _ purpose lock left σ t r _ e₁ _ hplays hn hc _ =>
      have hconclude := hplays.start_conclude hn hstart
      cases purpose with
      | settle c callerLock =>
          exact ⟨_, leaves_settle hplays.touches.2 hconclude hplays.uses_eq
            (fun key => by cases hplays <;> rfl) (hcallers c)⟩
      | answer => exact leaves_answer hplays ha hplain hn hconclude hc.alike.store

end Phase

end UssdFlows
