import UssdFlows.Proofs.Service.Endings

/-!
# What going on does to the engine

An operation that goes on does one *deed* (`Engine.Deed`), and the deed is about
one session at most: a new session is stored, an input recorded, an action asked
for, the session moves, an error is shown, or the session is ended in one of
three ways.  Besides that only locks change and things are counted that are not
sessions (`Engine.Calm`).

All deeds but the storing are about a session that is stored and active.  This is
so because whoever is in a turn has its session to himself, and the session has
been active when he went in (`Phase.Attends`, `Service.Orderly`).
-/

namespace UssdFlows

open EngineM

variable {e e' e₁ : Engine} {v : Visitor} {id : String} {s : Session} {about : Option String}
  {made : Option Session}

/-! ## Deeds -/

namespace Engine

theorem calm_counted (e : Engine) (n : Node) (wasAsked : Bool) (r : ActionResult) :
    e.Calm (e.counted n wasAsked r) := by
  unfold counted
  cases wasAsked with
  | false => exact e.calm_tally (m := .actions n.kind r.succeeded) 1 fun hm => hm
  | true =>
      exact (e.calm_tally (m := .actionTimes n.kind) 1 fun hm => hm).trans
        (calm_tally _ (m := .actions n.kind r.succeeded) 1 fun hm => hm)

/-- What is done to the engine when an operation goes on, and about which session;
only the one that was made for it may be stored as a new one. -/
inductive Deed (e : Engine) (made : Option Session) : Option String → Engine → Prop where
  | rests {about : Option String} : Deed e made about e
  /-- The id of the next session is used up. -/
  | numbers {about : Option String} : Deed e made about e.numbered
  | opens {s : Session} (hmade : made = some s) (hnew : e.store.get? s.id = none)
      (ha : s.isActive = true) : Deed e made (some s.id) (e.opened s)
  | receives {id : String} {s s' : Session} {input : String}
      (hget : e.store.get? id = some s) (ha : s.isActive = true)
      (hr : s.received? input e.now e.settings.sessionTimeout = some s') :
      Deed e made (some id) (e.received s' input)
  /-- An input is recorded, but the session cannot be renewed. -/
  | overruns {id : String} {s : Session} {input : String}
      (hget : e.store.get? id = some s) (ha : s.isActive = true)
      (hr : s.received? input e.now e.settings.sessionTimeout = none) :
      Deed e made (some id) (e.keep (s.record input e.now))
  | asks {id : String} {s : Session} {n : Node}
      (hget : e.store.get? id = some s) (ha : s.isActive = true) :
      Deed e made (some id) (e.requested n s)
  | moves {id : String} {s : Session} {n : Node} {o : Outcome}
      (hget : e.store.get? id = some s) (ha : s.isActive = true) :
      Deed e made (some id) (e.moved s n o)
  | finishes {id : String} {s : Session} {captured : Dict String}
      (hget : e.store.get? id = some s) (ha : s.isActive = true) :
      Deed e made (some id) (e.finished (s.capture captured))
  | complains {id : String} {s : Session} {data : List (String × Value)}
      (hget : e.store.get? id = some s) (ha : s.isActive = true) :
      Deed e made (some id) (e.announce .errorOccurred s none data)
  | lapses {id : String} {s : Session} {now : Instant}
      (hget : e.store.get? id = some s) (ha : s.isActive = true)
      (hx : s.isPastExpiry now = true) : Deed e made (some id) (e.lapsed s now)
  | terminates {id : String} {s : Session} {reason : String}
      (hget : e.store.get? id = some s) (ha : s.isActive = true) :
      Deed e made (some id) (e.terminated s reason)

/-- A deed is done, and besides only locks change and idle counts. -/
def Does (e : Engine) (made : Option Session) (about : Option String) (e' : Engine) : Prop :=
  ∃ e₁, e.Deed made about e₁ ∧ e₁.Calm e'

theorem Deed.does (h : e.Deed made about e') : e.Does made about e' := ⟨e', h, .refl e'⟩

theorem Does.calm_right (h : e.Does made about e₁) (hc : e₁.Calm e') : e.Does made about e' := by
  obtain ⟨e₂, hdeed, hcalm⟩ := h
  exact ⟨e₂, hdeed, hcalm.trans hc⟩

theorem Calm.does (h : e.Calm e') : e.Does made about e' := ⟨e, .rests, h⟩

theorem get?_keep_of_ne {j : String} (hj : s.id ≠ j) :
    (e.keep s).store.get? j = e.store.get? j := by
  rw [get?_keep, if_neg hj]

/-- No session changes but the one that the deed is about. -/
theorem Deed.others (h : e.Deed made about e') {j : String} (hj : about ≠ some j) :
    e'.store.get? j = e.store.get? j := by
  have hkeep : ∀ {id : String} {s s' : Session}, e.store.get? id = some s → s'.id = s.id →
      some id ≠ some j → (e.keep s').store.get? j = e.store.get? j := by
    intro id s s' hget hs' hne
    refine get?_keep_of_ne fun hid => hne ?_
    rw [← hid, hs', KeyedList.key_of_find? hget]
  cases h with
  | rests => rfl
  | numbers => rfl
  | opens hmade hnew ha => exact get?_keep_of_ne fun hid => hj (congrArg some hid)
  | receives hget ha hr =>
      obtain ⟨expiry, -, rfl⟩ := Session.received?_eq_some hr
      exact hkeep hget rfl hj
  | overruns hget ha hr => exact hkeep hget rfl hj
  | asks hget ha => rw [store_requested]
  | moves hget ha =>
      rw [store_moved]
      exact hkeep hget rfl hj
  | finishes hget ha => exact hkeep hget rfl hj
  | complains hget ha => rfl
  | lapses hget ha hx => exact hkeep hget rfl hj
  | terminates hget ha => exact hkeep hget rfl hj

theorem Does.others (h : e.Does made about e') {j : String} (hj : about ≠ some j) :
    e'.store.get? j = e.store.get? j := by
  obtain ⟨e₁, hdeed, hcalm⟩ := h
  rw [hcalm.alike.store]
  exact hdeed.others hj

/-- Deeds leave the settings and the present. -/
theorem Deed.sameSettings (h : e.Deed made about e') :
    e'.settings = e.settings ∧ e'.replaced = e.replaced ∧ e'.now = e.now := by
  cases h with
  | asks hget ha =>
      have hsame := e.sameService_requested ‹_› ‹_›
      exact ⟨hsame.settings, hsame.replaced, hsame.now⟩
  | _ => exact ⟨rfl, rfl, rfl⟩

/-- Deeds leave the flows as they are stored. -/
theorem Deed.sameFlows (h : e.Deed made about e') :
    e'.registry.versions = e.registry.versions ∧ e'.registry.current = e.registry.current := by
  cases h with
  | asks hget ha =>
      have hsame := e.sameService_requested ‹_› ‹_›
      exact ⟨hsame.versions, hsame.current⟩
  | _ => exact ⟨rfl, rfl⟩

theorem Does.sameFlows (h : e.Does made about e') :
    e'.registry.versions = e.registry.versions ∧ e'.registry.current = e.registry.current := by
  obtain ⟨e₁, hdeed, hcalm⟩ := h
  obtain ⟨hversions, hcurrent⟩ := hdeed.sameFlows
  have hsame := hcalm.alike.service
  exact ⟨hsame.versions.trans hversions, hsame.current.trans hcurrent⟩

theorem Does.sameSettings (h : e.Does made about e') :
    e'.settings = e.settings ∧ e'.replaced = e.replaced ∧ e'.now = e.now := by
  obtain ⟨e₁, hdeed, hcalm⟩ := h
  obtain ⟨hsettings, hreplaced, hnow⟩ := hdeed.sameSettings
  have hsame := hcalm.alike.service
  exact ⟨hsame.settings.trans hsettings, hsame.replaced.trans hreplaced, hsame.now.trans hnow⟩

theorem hasActive_of_stored (hget : e.store.get? id = some s) (ha : s.isActive = true) :
    e.hasActive id = true := (Option.any_eq_true _ _).2 ⟨s, hget, ha⟩

theorem exists_of_hasActive (h : e.hasActive id = true) :
    ∃ s, e.store.get? id = some s ∧ s.isActive = true := (Option.any_eq_true _ _).1 h

theorem isActive_of_hasActive (h : e.hasActive id = true) (hget : e.store.get? id = some s) :
    s.isActive = true := by
  rwa [hasActive, hget, Option.any_some] at h

end Engine

/-! ## Stages -/

namespace Turn

variable {t : Turn}

section Stored

variable (hget : e.store.get? t.sessionId = some s) (ha : s.isActive = true)

include hget ha

theorem does_recordInput : e.Does made (some t.sessionId) (t.recordInput.start e).2 := by
  rw [start_recordInput hget]
  cases hr : s.received? (t.input.getD "") e.now e.settings.sessionTimeout with
  | none => exact (Engine.Deed.overruns hget ha hr).does
  | some s' => exact (Engine.Deed.receives hget ha hr).does

theorem does_ask (hr : e.replaced = []) : e.Does made (some t.sessionId) (t.ask.start e).2 := by
  cases hn : t.node.isAction with
  | false =>
      rw [start_ask_of_not_isAction hget hr hn]
      exact Engine.Deed.rests.does
  | true =>
      rw [start_ask_of_isAction hget hr hn]
      exact (Engine.Deed.asks hget ha).does

theorem does_advance : e.Does made (some t.sessionId) (t.advance.start e).2 := by
  rcases start_advance_cases hget with ⟨err, hstart⟩ | ⟨o, target, n, -, -, -, hstart⟩
  · rw [hstart]
    exact Engine.Deed.rests.does
  · rw [hstart]
    exact (Engine.Deed.moves hget ha).does

theorem does_complete : e.Does made (some t.sessionId) (t.complete.start e).2 := by
  cases ho : t.outcome with
  | none =>
      rw [complete, ho]
      simp only [start_bind, start_pure, start_finishSession hget ha]
      have hdeed : e.Deed made (some t.sessionId) (e.finished (s.capture .empty)) :=
        .finishes hget ha
      exact hdeed.does
  | some o =>
      rw [start_complete hget ho ha]
      exact (Engine.Deed.finishes hget ha).does

/-- Each stage of a turn that serves an active session is a deed. -/
theorem does_perform {σ : Stage} (hσ : σ ≠ .dispatch) :
    e.Does made (some t.sessionId) ((t.perform σ).start e).2 := by
  cases σ with
  | recordInput => exact does_recordInput hget ha
  | dispatch => exact absurd rfl hσ
  | advance => exact does_advance hget ha
  | complete => exact does_complete hget ha
  | reprompt =>
      rw [perform, start_reprompt hget]
      exact (Engine.Deed.complains hget ha).does
  | respond =>
      rw [perform, start_respond hget]
      exact Engine.Deed.rests.does

end Stored

/-- Hearing of the result of an action only counts it. -/
theorem calm_hear (pending : Option Pending) (hr : e.replaced = []) :
    e.Calm ((t.hear pending).start e).2 := by
  cases hget : e.store.get? t.sessionId with
  | none =>
      rw [start_hear_of_missing hget]
      exact .refl e
  | some s =>
      rw [start_hear hget hr]
      dsimp only
      have hcalm : e.Calm (if t.node.isAction then
          e.counted t.node pending.isSome (actionResult e pending) else e) := by
        split
        · exact e.calm_counted _ _ _
        · exact .refl e
      cases t.node.interpret s.bindings t.givenInput (actionResult e pending) with
      | ok o => exact hcalm
      | error err => exact hcalm

end Turn

/-! ## Pieces -/

theorem storeSession_cases {r : Except EngineError Unit}
    (h : (storeSession s).start e = (r, e')) :
    (r = .ok () ∧ e' = e.opened s ∧ e.store.get? s.id = none) ∨
      (e' = e ∧ ∃ err, r = .error err) := by
  rw [storeSession, start_bind_of_ok (start_get e), SessionStore.create] at h
  by_cases hc : e.store.sessions.contains s.id = true
  · rw [if_pos hc] at h
    cases h
    exact Or.inr ⟨rfl, _, rfl⟩
  · rw [if_neg hc] at h
    cases h
    refine Or.inl ⟨rfl, rfl, ?_⟩
    simpa [KeyedList.contains, SessionStore.get?] using hc

/-- An input is admitted, or turned away and nothing is done, or its session has
expired. -/
theorem admission_cases {text : String} {a : Except EngineError Admission}
    (h : (admission id text).start e = (a, e')) :
    (∃ t, a = .ok (.admitted t) ∧ e' = e) ∨
      (e' = e ∧ ((∃ err, a = .error err) ∨ ∃ status, a = .ok (.rejected status))) ∨
      ∃ s, a = .ok .lapsed ∧ e.store.get? id = some s ∧ s.isActive = true ∧
        s.isPastExpiry e.now = true ∧ e' = e.lapsed s e.now := by
  cases hget : e.store.get? id with
  | none =>
      rw [start_admission_of_missing hget] at h
      cases h
      exact Or.inr (Or.inl ⟨rfl, Or.inl ⟨_, rfl⟩⟩)
  | some s =>
      cases ha : s.isActive with
      | false =>
          rw [start_admission_of_not_isActive hget ha] at h
          cases h
          exact Or.inr (Or.inl ⟨rfl, Or.inr ⟨_, rfl⟩⟩)
      | true =>
          cases hx : s.isPastExpiry e.now with
          | true =>
              rw [start_admission_of_isPastExpiry hget ha hx] at h
              cases h
              exact Or.inr (Or.inr ⟨s, rfl, rfl, ha, hx, rfl⟩)
          | false =>
              rw [admission, start_bind_of_ok (start_session_of_stored hget),
                start_bind_of_ok (start_get e), ha, hx] at h
              cases hf : e.registry.version? s.flowId s.flowVersion with
              | none =>
                  simp only [Bool.not_true, Bool.false_eq_true, if_false, start_bind, flowOf,
                    start_get, hf, start_ofOption_none] at h
                  cases h
                  exact Or.inr (Or.inl ⟨rfl, Or.inl ⟨_, rfl⟩⟩)
              | some f =>
                  cases hn : s.currentNode.bind f.node? with
                  | none =>
                      simp only [Bool.not_true, Bool.false_eq_true, if_false, start_bind,
                        start_flowOf_of_stored hf, nodeOf, hn, start_ofOption_none] at h
                      cases h
                      exact Or.inr (Or.inl ⟨rfl, Or.inl ⟨_, rfl⟩⟩)
                  | some n =>
                      simp only [Bool.not_true, Bool.false_eq_true, if_false, start_bind,
                        start_flowOf_of_stored hf, start_nodeOf_of_some hn, start_pure] at h
                      cases h
                      exact Or.inl ⟨_, rfl, rfl⟩

theorem endSession_cases {reason : String} {r : Except EngineError Session}
    (h : (endSession id reason).start e = (r, e')) :
    (e' = e ∧ ∃ err, r = .error err) ∨
      ∃ s, e.store.get? id = some s ∧ s.isActive = true ∧
        r = .ok (s.terminatedAt reason e.now) ∧ e' = e.terminated s reason := by
  rcases start_endSession id reason e with ⟨err, hstart, -⟩ | ⟨s, hget, hstart⟩
  · cases h.symm.trans hstart
    exact Or.inl ⟨rfl, err, rfl⟩
  · cases h.symm.trans hstart
    cases ha : s.isActive with
    | true => exact Or.inr ⟨s, hget, ha, rfl, rfl⟩
    | false =>
        rw [endSession, start_bind_of_ok (start_session_of_stored hget), ha] at hstart
        cases hstart

theorem lapseIfDue_cases {now : Instant} {r : Except EngineError Bool}
    (h : (lapseIfDue id now).start e = (r, e')) :
    (e' = e ∧ r = .ok false) ∨
      ∃ s, e.store.get? id = some s ∧ s.isActive = true ∧ s.isPastExpiry now = true ∧
        r = .ok true ∧ e' = e.lapsed s now := by
  rw [lapseIfDue, start_bind_of_ok (start_get e)] at h
  cases hget : e.store.get? id with
  | none =>
      rw [hget] at h
      cases h
      exact Or.inl ⟨rfl, rfl⟩
  | some s =>
      rw [hget] at h
      dsimp only at h
      by_cases hdue : (s.isActive && s.isPastExpiry now) = true
      · simp only [if_pos hdue, start_bind, start_lapse hget, start_pure] at h
        cases h
        rw [Bool.and_eq_true] at hdue
        exact Or.inr ⟨s, rfl, hdue.1, hdue.2, rfl, rfl⟩
      · simp only [if_neg hdue, start_pure] at h
        cases h
        exact Or.inl ⟨rfl, rfl⟩

/-- Publishing counts a verdict, and stores the flow or does not. -/
theorem publish_cases (f : Flow) (e : Engine) :
    ∃ e₁, e.Calm e₁ ∧ (((Operation.publish f).perform.start e).2 = e₁ ∨
      ((Operation.publish f).perform.start e).2 =
        { e₁ with registry := (e₁.registry.publish f).2 }) := by
  have hexamine : ∃ report e₁, (examine f).start e = (.ok report, e₁) ∧ e.Calm e₁ :=
    ⟨_, _, rfl, e.calm_tally _ fun hm => hm⟩
  obtain ⟨report, e₁, hstart, hcalm⟩ := hexamine
  refine ⟨e₁, hcalm, ?_⟩
  rw [Operation.perform, publishFlow, start_bind, start_bind_of_ok hstart]
  cases report.isValid with
  | false => exact Or.inl rfl
  | true => exact Or.inr rfl

/-! ## Operations in progress -/

namespace Phase

variable {p p' : Phase} {purpose : Purpose} {lock left : Nat} {σ : Stage} {t : Turn}
  {r : Except EngineError Turn}

/-- The session that an operation is about once it goes on. -/
def subject? : Phase → Option String
  | settling _ _ s _ _ => some s.id
  | p => p.served?

/-- The session that was made and is about to be stored. -/
def made? : Phase → Option Session
  | settling _ _ s _ _ => some s
  | _ => none

theorem eq_of_made? (h : p.made? = some s) :
    ∃ c callerLock t lock, p = .settling c callerLock s t lock := by
  cases p with
  | settling c callerLock s' t lock =>
      cases h
      exact ⟨c, callerLock, t, lock, rfl⟩
  | _ => cases h

theorem subject?_of_made? (h : p.made? = some s) : p.subject? = some s.id := by
  obtain ⟨c, callerLock, t, lock, rfl⟩ := eq_of_made? h
  rfl

/-- Whoever is in a turn serves a session that is stored and active, and whoever is
about to store a session stores an active one for his turn. -/
def Attends (e : Engine) : Phase → Prop
  | settling _ _ s t _ => t.sessionId = s.id ∧ s.isActive = true
  | playing _ _ _ _ t | acting _ _ _ _ t => e.hasActive t.sessionId = true
  | _ => True

theorem mem_uses_of_subject? (h : p.subject? = some id) : id ∈ p.uses.map Prod.fst := by
  have hturn : ∀ (purpose : Purpose) (lock : Nat),
      id ∈ (purpose.uses ++ [(id, lock)]).map Prod.fst := by simp
  cases p with
  | settling c callerLock s t lock =>
      cases h
      simp [uses]
  | entering call i lock =>
      cases h
      simp [uses]
  | playing purpose lock left σ t =>
      cases h
      exact hturn purpose lock
  | acting purpose lock left pending t =>
      cases h
      exact hturn purpose lock
  | _ => cases h

theorem Plays.attends (hp : Plays e p purpose lock left σ t r e') (h : p.Attends e) :
    e.hasActive t.sessionId = true := by
  cases hp <;> exact h

theorem Plays.subject?_eq (hp : Plays e p purpose lock left σ t r e') :
    p.subject? = some t.sessionId := by
  cases hp <;> rfl

theorem Plays.does (hp : Plays e p purpose lock left σ t r e') (h : p.Attends e)
    (hr : e.replaced = []) : e.Does made (some t.sessionId) e' := by
  obtain ⟨s, hget, ha⟩ := Engine.exists_of_hasActive (hp.attends h)
  cases hp with
  | exhausted => exact Engine.Deed.rests.does
  | stage hσ hstart =>
      have hdoes : e.Does made _ _ := t.does_perform hget ha hσ
      rwa [hstart] at hdoes
  | unasked hask =>
      have hdoes : e.Does made _ _ := t.does_ask hget ha hr
      rwa [hask] at hdoes
  | hears hask hhear =>
      have hdoes : e.Does made _ _ := t.does_ask hget ha hr
      rw [hask] at hdoes
      have hcalm := t.calm_hear none (hdoes.sameSettings.2.1.trans hr)
      rw [hhear] at hcalm
      exact hdoes.calm_right hcalm
  | @answered _ _ _ pending _ _ _ hhear =>
      have hcalm := t.calm_hear (some pending) hr
      rw [hhear] at hcalm
      exact hcalm.does

theorem Closes.calm {uses : Uses} (h : Closes v uses e e') : e.Calm e' := ⟨h.alike, h.silent⟩

/-- **Deeds.**  An operation that goes on does one deed, about its session. -/
theorem Goes.does (hg : Goes v e p p' e') (h : p.Attends e) (hr : e.replaced = []) :
    e.Does p.made? p.subject? e' := by
  cases hg with
  | unserved _ => exact Engine.Deed.rests.does
  | calls _ => exact (e.calm_locks _).does
  | asks _ => exact (e.calm_locks _).does
  | opens hopen =>
      obtain ⟨-, rfl, -⟩ := openSession_opened hopen
      exact Engine.Deed.numbers.does.calm_right (Engine.calm_locks _ _)
  | resumes hopen _ hc =>
      rcases openSession_cases hopen with rfl | rfl
      · exact hc.calm.does
      · exact Engine.Deed.numbers.does.calm_right hc.calm
  | stores hstore =>
      rcases storeSession_cases hstore with ⟨-, rfl, hnew⟩ | ⟨-, err, herr⟩
      · exact (Engine.Deed.opens rfl hnew h.2).does
      · cases herr
  | drops hstore hc =>
      rcases storeSession_cases hstore with ⟨herr, -⟩ | ⟨rfl, -⟩
      · cases herr
      · exact hc.calm.does
  | admits hadmission =>
      obtain ⟨rfl, -⟩ := admission_admitted hadmission
      exact Engine.Deed.rests.does
  | refuses hadmission hrefusal hc =>
      rcases admission_cases hadmission with ⟨t, rfl, -⟩ | ⟨rfl, -⟩ | ⟨s, -, hget, ha, hx, rfl⟩
      · cases hrefusal
      · exact hc.calm.does
      · exact (Engine.Deed.lapses hget ha hx).does.calm_right hc.calm
  | ends hend hc =>
      rcases endSession_cases hend with ⟨rfl, -⟩ | ⟨s, hget, ha, -, rfl⟩
      · exact hc.calm.does
      · exact (Engine.Deed.terminates hget ha).does.calm_right hc.calm
  | lapses hlapse hc =>
      rcases lapseIfDue_cases hlapse with ⟨rfl, -⟩ | ⟨s, hget, ha, hx, -, rfl⟩
      · exact hc.calm.does
      · exact (Engine.Deed.lapses hget ha hx).does.calm_right hc.calm
  | strays => exact Engine.Deed.rests.does
  | @waits purpose lock left t pending _ hask =>
      obtain ⟨s, hget, ha⟩ := Engine.exists_of_hasActive (show e.hasActive t.sessionId = true from h)
      have hdoes : e.Does none _ _ := t.does_ask hget ha hr
      rwa [hask] at hdoes
  | continues hplays _ =>
      rw [hplays.subject?_eq]
      exact hplays.does h hr
  | concludes hplays _ hc _ =>
      rw [hplays.subject?_eq]
      exact (hplays.does h hr).calm_right hc.calm

/-- An operation that goes on still serves a session that is active, or has left it. -/
theorem Goes.attends (hg : Goes v e p p' e') (h : p.Attends e) : p'.Attends e' := by
  cases hg with
  | opens hopen =>
      obtain ⟨-, -, expiry, n, rfl, -, rfl⟩ := openSession_opened hopen
      exact ⟨rfl, rfl⟩
  | @stores c callerLock s t lock _ hstore =>
      rcases storeSession_cases hstore with ⟨-, rfl, -⟩ | ⟨-, err, herr⟩
      · refine Engine.hasActive_of_stored (s := s) ?_ h.2
        rw [Engine.get?_opened, if_pos h.1.symm]
      · cases herr
  | admits hadmission =>
      obtain ⟨rfl, s, f, n, hget, hlive, -, -, rfl⟩ := admission_admitted hadmission
      rw [Session.isLive, Bool.and_eq_true] at hlive
      exact Engine.hasActive_of_stored hget hlive.1
  | @waits purpose lock left t pending _ hask =>
      have htouches : e.Touches Stage.dispatch.May t.sessionId e' := Turn.touches_of_ask hask
      exact htouches.keeps_hasActive (fun hmay => Stage.noConfusion hmay.eq_complete) h
  | @continues _ purpose lock left σ t t' σ' _ hplays hn =>
      have hσ : σ ≠ .complete := by
        rintro rfl
        cases hn
      show e'.hasActive t'.sessionId = true
      rw [hplays.continues.sessionId]
      exact hplays.touches.1.keeps_hasActive (fun hmay => hσ hmay.eq_complete) (hplays.attends h)
  | _ => trivial

end Phase

/-! ## Services -/

namespace Service

variable {w : Service}

/-- The operations in progress stand in line, and each has its session to itself. -/
structure Orderly (w : Service) : Prop where
  inLine : w.InLine
  plain : w.engine.replaced = []
  attends : ∀ (i : Nat) (t : Task), w.tasks[i]? = some t → t.phase.Attends w.engine

namespace Orderly

theorem does (h : w.Orderly) {i : Nat} {t : Task} {p : Phase} (ht : w.tasks[i]? = some t)
    (hg : t.phase.Goes t.visitor w.engine p e') : w.engine.Does t.phase.made? t.phase.subject? e' :=
  hg.does (h.attends i t ht) h.plain

/-- What is inside a section is out of reach for all others. -/
theorem get?_inside (h : w.Orderly) {i j : Nat} {t u : Task} {p : Phase}
    (ht : w.tasks[i]? = some t) (hcan : t.phase.canStep t.visitor w.engine = true)
    (hg : t.phase.Goes t.visitor w.engine p e') (hu : w.tasks[j]? = some u) (hji : j ≠ i)
    (hin : id ∈ u.phase.inside) : e'.store.get? id = w.engine.store.get? id := by
  refine (h.does ht hg).others fun hsubject => ?_
  exact h.inLine.ne_of_inside ht hcan hu hji (Phase.mem_uses_of_subject? hsubject) hin

theorem proceed (h : w.Orderly) (i : Nat) : (w.proceed i).Orderly := by
  have hline := h.inLine.proceed i
  rcases proceed_cases w i with ⟨hsame, -⟩ | ⟨t, p, e', ht, hcan, -, hg, hgoes, -⟩
  · rw [hsame]
    exact h
  · rw [hgoes] at hline ⊢
    refine ⟨hline, ((h.does ht hg).sameSettings.2.1).trans h.plain, fun j u hu => ?_⟩
    rcases set_cases hu with ⟨-, rfl⟩ | ⟨hji, hu⟩
    · exact hg.attends (h.attends i t ht)
    · have hattends := h.attends j u hu
      have hinside : ∀ id ∈ u.phase.inside, e'.hasActive id = w.engine.hasActive id := by
        intro id hin
        unfold Engine.hasActive
        rw [h.get?_inside ht hcan hg hu hji hin]
      obtain ⟨v, q⟩ := u
      cases q with
      | playing purpose lock left σ t' =>
          exact (hinside t'.sessionId (by simp [Phase.inside])).trans hattends
      | acting purpose lock left pending t' =>
          exact (hinside t'.sessionId (by simp [Phase.inside])).trans hattends
      | _ => exact hattends

/-- Whatever does not touch active sessions leaves the operations in order. -/
theorem of_engine (h : w.Orderly) {e : Engine} {published : List Flow}
    (hlocks : e.locks = w.engine.locks) (hplain : e.replaced = w.engine.replaced)
    (hactive : ∀ id, w.engine.hasActive id = true → e.hasActive id = true) :
    (⟨e, w.tasks, published⟩ : Service).Orderly := by
  refine ⟨h.inLine.of_locks hlocks published, hplain.trans h.plain, fun i t ht => ?_⟩
  have hattends := h.attends i t ht
  obtain ⟨v, q⟩ := t
  cases q with
  | playing purpose lock left σ t' => exact hactive _ hattends
  | acting purpose lock left pending t' => exact hactive _ hattends
  | _ => exact hattends

theorem begin (h : w.Orderly) (call : Call) : (w.begin call).Orderly := by
  refine ⟨h.inLine.begin call, h.plain, fun i t ht => ?_⟩
  rcases begin_cases ht with ht | ⟨-, rfl⟩
  · exact h.attends i t ht
  · trivial

theorem make (h : w.Orderly) (m : Move) : (w.make m).Orderly := by
  cases m with
  | turnClock now => exact h.of_engine rfl rfl fun id ha => ha
  | publish f =>
      obtain ⟨e₁, registry, halike, hlocks, hstart⟩ := start_publish f w.engine
      show (w.perform (.publish f)).Orderly
      rw [Service.perform, hstart]
      refine h.of_engine hlocks halike.service.replaced fun id ha => ?_
      rw [Engine.hasActive, halike.store]
      exact ha
  | drop retention now =>
      refine h.of_engine rfl rfl fun id ha => ?_
      obtain ⟨s, hget, hs⟩ := Engine.exists_of_hasActive ha
      exact Engine.hasActive_of_stored (SessionStore.get?_dropStale_of_active hget hs) hs
  | begin call => exact h.begin call
  | proceed i => exact h.proceed i

theorem after (h : w.Orderly) (ms : List Move) : (w.after ms).Orderly := by
  induction ms generalizing w with
  | nil => exact h
  | cons m ms ih => exact ih (h.make m)

/-- The settings stay as they are. -/
theorem settings_after (h : w.Orderly) (ms : List Move) :
    (w.after ms).engine.settings = w.engine.settings := by
  induction ms generalizing w with
  | nil => rfl
  | cons m ms ih =>
      refine (ih (h.make m)).trans ?_
      cases m with
      | publish f =>
          obtain ⟨e₁, registry, halike, -, hstart⟩ := start_publish f w.engine
          show ((Operation.publish f).perform.start w.engine).2.settings = _
          rw [hstart]
          exact halike.service.settings
      | proceed i =>
          show (w.proceed i).engine.settings = _
          rcases proceed_cases w i with ⟨hsame, -⟩ | ⟨t, p, e', ht, -, -, hg, hgoes, -⟩
          · rw [hsame]
          · rw [hgoes]
            exact (h.does ht hg).sameSettings.1
      | _ => rfl

end Orderly

theorem orderly_fresh (settings : Settings) (sink : Option Sink) (executor : Option Executor)
    (now : Instant) : (fresh settings sink executor now).Orderly :=
  ⟨inLine_fresh .., rfl, fun _ _ ht => absurd ht nofun⟩

end Service

end UssdFlows
