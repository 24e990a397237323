import UssdFlows.Proofs.Engine.Tales
import UssdFlows.Proofs.Service.Deeds
import UssdFlows.Proofs.Service.Trails

/-!
# What operations tell

An operation that plays a turn has the tale of its turn; all other operations tell of
one event at most.  What an operation has told so far goes with the phase that it is in
(`Phase.Tale`), and an operation that goes on takes its tale on (`Phase.Goes.tale`).
When it is over, what it has told goes with what it was asked and what it gives back
(`Call.Told`).
-/

namespace UssdFlows

open EngineM

variable {L L' : Ledger} {others : String → Prop} {e e' e₁ : Engine} {v : Visitor} {id : String}
  {s : Session} {f : Flow} {es new : List Event} {event : Event}

/-! ## What goes with a call -/

/-- What an operation that is over has told, given what it gives back. -/
def Call.Told (f : Flow) (es : List Event) : Call → Except EngineError Reply → Prop
  | .create _, .ok (.session _) => es = [] ∨ SettledTale f es
  | .create _, .error _ => es = []
  | .input .., .ok (.navigation shown _) => AnswerTale f shown.error.isSome shown.isFinished es
  | .input id _, .error err => FailedTale f es ∨
      err = .notActive id .expired ∧ es.map Event.type = [.sessionExpired]
  | .terminate .., .ok (.session _) => es.map Event.type = [.sessionTerminated]
  | .terminate .., .error _ => es = []
  | .expire .., .ok (.truth isDone) => es.map Event.type = if isDone then [.sessionExpired] else []
  | _, _ => False

/-- What an operation that is not over may have told. -/
def Call.Telling (f : Flow) (es : List Event) : Call → Prop
  | .create _ => ∃ hops, StartTale f hops [] es
  | .input .. => es.map Event.type = [.inputReceived] ∨ ∃ hops, InputTale f (visits hops) es
  | _ => False

/-- Where nothing was told it does not matter by which flow. -/
theorem Call.Told.of_nil {call : Call} {r : Except EngineError Reply} (h : call.Told f [] r)
    (f' : Flow) : call.Told f' [] r := by
  have hinput : ∀ {later : List EventType}, ¬ InputTale f later [] := by
    rintro later ⟨n, event, rest, -, hnil, -⟩
    cases hnil
  have hanswer : ∀ {isError isFinished : Bool}, ¬ AnswerTale f isError isFinished [] := by
    intro isError isFinished hanswer
    unfold AnswerTale at hanswer
    split at hanswer
    · exact hinput hanswer
    · split at hanswer
      · exact hinput hanswer.choose_spec
      · exact hinput hanswer.choose_spec
  cases call with
  | create c =>
      rcases r with err | s | ⟨shown, s⟩ | b
      · exact h
      · exact Or.inl rfl
      · exact h.elim
      · exact h.elim
  | input id text =>
      rcases r with err | s | ⟨shown, s⟩ | b
      · rcases h with - | ⟨rfl, hexpired⟩
        · exact Or.inl (Or.inl rfl)
        · cases hexpired
      · exact h.elim
      · exact absurd h hanswer
      · exact h.elim
  | terminate id reason => rcases r with err | s | ⟨shown, s⟩ | b <;> exact h
  | expire id now => rcases r with err | s | ⟨shown, s⟩ | b <;> exact h

/-- A turn for a purpose is what an operation plays that was asked something. -/
def Call.Plays (id : String) : Purpose → Call → Prop
  | .settle .., call => ∃ c, call = .create c
  | .answer, call => ∃ text, call = .input id text

/-! ## Tales of operations -/

namespace Phase

variable {p p' : Phase} {purpose : Purpose} {lock left : Nat} {σ : Stage} {t t' : Turn}
  {r : Except EngineError Turn} {out : Except EngineError Reply} {call : Call} {next : Nat}
  {trail : String → List String} {answers : String → Nat}

/-- What an operation has told so far, given what it was asked. -/
def Tale (L : Ledger) (next : Nat) (call : Call) (es : List Event) : Phase → Prop
  | ready call' => call' = call ∧ es = []
  | opening .. => (∃ c, call = .create c) ∧ es = []
  | settling _ _ _ t _ => (∃ c, call = .create c) ∧ es = [] ∧
      ∃ id f n, t = .start id f n none ∧ f.node? f.startNode = some n
  | entering call' id _ => call' = call ∧ call.session? = some id ∧ es = []
  | playing purpose _ _ σ t => call.Plays t.sessionId purpose ∧
      (∀ event ∈ es, event.sessionId = t.sessionId) ∧ t.Tale purpose σ es
  | acting purpose _ _ _ t => call.Plays t.sessionId purpose ∧
      (∀ event ∈ es, event.sessionId = t.sessionId) ∧ t.Announced purpose es
  | finished r => ∃ f, call.Told f es r ∧
      (∀ id, call.session? = some id → ∀ event ∈ es, event.sessionId = id) ∧
      ∀ event ∈ es, IsIssued next event.sessionId ∧ f = L.pin event.sessionId

theorem Tale.mono {m : Nat} (h : p.Tale L next call es) (hL : L.Agrees next L') (hle : next ≤ m) :
    p.Tale L' m call es := by
  cases p with
  | finished r =>
      obtain ⟨f, htold, hown, hpinned⟩ := h
      refine ⟨f, htold, hown, fun event hmem => ?_⟩
      obtain ⟨hissued, hflow⟩ := hpinned event hmem
      exact ⟨hissued.mono hle, hflow.trans (hL _ hissued).1.symm⟩
  | _ => exact h

/-- What an operation gives back of the turn that it has played. -/
def Replies : Purpose → Except EngineError Turn → Except EngineError Reply → Prop
  | _, .error err, out => out = .error err
  | .settle .., .ok _, out => ∃ s, out = .ok (.session s)
  | .answer, .ok t, out => ∃ shown s, out = .ok (.navigation shown s) ∧ shown.error = t.error ∧
      shown.isFinished = t.isFinished

theorem replies_error (v : Visitor) (id : String) (lock : Nat) (err : EngineError)
    (purpose : Purpose) (e : Engine) :
    ((conclude v id lock (.error err) purpose).start e).1 = .error err := by
  cases purpose with
  | settle c callerLock =>
      obtain ⟨out, e', hstart, -, -, herr⟩ := closes_conclude v id lock
        (.error err : Except EngineError Turn) (.settle c callerLock) e
      rw [hstart]
      exact herr c callerLock err rfl rfl
  | answer =>
      obtain ⟨out, e', hstart, -, -, -, -, herr⟩ := start_concludeInput_served id (.error err)
        { e with locks := e.locks.quit id lock v }
      rw [← herr err rfl]
      exact congrArg Prod.fst hstart

/-- A turn that has come to its end while its session is stored is answered. -/
theorem replies_ok (hget : e.store.get? t.sessionId = some s) (v : Visitor) (lock : Nat)
    (purpose : Purpose) :
    Replies purpose (.ok t) ((conclude v t.sessionId lock (.ok t) purpose).start e).1 := by
  cases purpose with
  | settle c callerLock =>
      refine ⟨s, ?_⟩
      rw [conclude, start_bind_of_ok (start_attempt ..),
        show (do servedBy (← ofResult (.ok t)) : EngineM Session).start e = (.ok s, e) from
          start_served_of_stored hget]
      rfl
  | answer =>
      have hshown : (do navigationOf (← ofResult (.ok t)) : EngineM Navigation).start e =
          (.ok ⟨t.sessionId, t.prompt, t.isFinished, t.error, s.status, s.currentNode⟩, e) :=
        start_navigationOf hget
      obtain ⟨e', hstart, halike, -⟩ := start_concludeInput t.sessionId
        (.ok (.inl ⟨t.sessionId, t.prompt, t.isFinished, t.error, s.status, s.currentNode⟩))
        { e with locks := e.locks.quit t.sessionId lock v }
      dsimp only [concluded] at hstart
      have hget' : e'.store.get? t.sessionId = some s := by
        rw [halike.store]
        exact hget
      refine ⟨⟨t.sessionId, t.prompt, t.isFinished, t.error, s.status, s.currentNode⟩, s, ?_, rfl,
        rfl⟩
      rw [conclude, start_bind_of_ok (start_attempt ..), hshown,
        start_bind_of_ok (start_leaveLock_eq ..), Except.map, start_bind_of_ok hstart,
        start_bind_of_ok (start_served_of_stored hget')]
      rfl

/-- The tale of a turn that is over is the tale of its operation. -/
theorem told_of_ended (h : Turn.Ended f es purpose r) (hreplies : Replies purpose r out)
    (hcall : call.Plays id purpose) : call.Told f es out := by
  cases purpose with
  | settle c callerLock =>
      obtain ⟨c', rfl⟩ := hcall
      cases r with
      | error err => exact h.elim
      | ok t =>
          obtain ⟨s, rfl⟩ := hreplies
          exact Or.inr h
  | answer =>
      obtain ⟨text, rfl⟩ := hcall
      cases r with
      | error err =>
          cases hreplies
          exact Or.inl h
      | ok t =>
          obtain ⟨shown, s, rfl, herror, hfinished⟩ := hreplies
          show AnswerTale f shown.error.isSome shown.isFinished es
          rw [herror, hfinished]
          exact h

/-- What goes on after a stage is decided by what the stage has come to. -/
theorem Plays.start_step (hp : Plays e p purpose lock left σ t r e₁) (v : Visitor) :
    (p.step v).start e = (afterStage v purpose lock left σ t.sessionId r).start e₁ := by
  cases hp with
  | exhausted => rfl
  | stage hσ h =>
      rw [step, playStage, if_neg hσ, start_bind_of_ok (start_attempt ..), h]
  | unasked h =>
      rw [step, playStage, if_pos rfl, start_bind_of_ok (start_attempt ..), h]
  | hears h h' =>
      rw [step, playStage, if_pos rfl, start_bind_of_ok (start_attempt ..), h]
      dsimp only
      rw [start_bind_of_ok (start_attempt ..), h']
  | answered h => rw [step, start_bind_of_ok (start_attempt ..), h]

/-- An operation that is over with its turn has left its sections and given the result. -/
theorem Plays.start_conclude (hp : Plays e p purpose lock left σ t r e₁)
    (hn : ∀ t', r = .ok t' → t'.next? σ = none)
    (hstart : (p.step v).start e = (.ok (.finished out), e')) :
    (conclude v t.sessionId lock r purpose).start e₁ = (out, e') := by
  rw [hp.start_step v] at hstart
  cases r with
  | error err =>
      rw [afterStage, start_endWith] at hstart
      cases hstart
      rfl
  | ok t' =>
      rw [afterStage, hn t' rfl] at hstart
      dsimp only at hstart
      rw [start_endWith] at hstart
      cases hstart
      rfl

/-- How an operation ends that has performed the last stage of its turn. -/
theorem Plays.replies (hp : Plays e p purpose lock left σ t r e₁)
    (hn : ∀ t', r = .ok t' → t'.next? σ = none)
    (hstart : (p.step v).start e = (.ok (.finished out), e'))
    (hget : e₁.store.get? t.sessionId = some s) : Replies purpose r out := by
  have hout : out = ((conclude v t.sessionId lock r purpose).start e₁).1 := by
    rw [hp.start_conclude hn hstart]
  rw [hout]
  cases r with
  | error err => exact replies_error v t.sessionId lock err purpose e₁
  | ok t' =>
      have hid := hp.continues.sessionId
      rw [← hid] at hget ⊢
      exact replies_ok hget v lock purpose

/-- The session of a turn rests where the turn is. -/
theorem Plays.rests (hp : Plays e p purpose lock left σ t r e') (hw : p.Walks trail answers)
    (hrests : ∀ id s, e.store.get? id = some s → (trail id).getLast? = s.currentNode)
    (hget : e.store.get? t.sessionId = some s) : s.currentNode = some t.node.id := by
  rw [← hrests _ s hget]
  cases hp <;> exact hw.1

/-- A stage that an operation performs takes its tale on. -/
theorem Plays.tale (hp : Plays e p purpose lock left σ t r e') (h : p.Tale L next call es)
    (hattends : p.Attends e) (hr : e.replaced = []) (hf : p.Fits L e)
    (hw : p.Walks trail answers)
    (hrests : ∀ id s, e.store.get? id = some s → (trail id).getLast? = s.currentNode) :
    call.Plays t.sessionId purpose ∧ (∀ event ∈ es, event.sessionId = t.sessionId) ∧
      ∃ new, e.TellsOf t.sessionId new e' ∧ Turn.Leads t.flow purpose σ (es ++ new) r := by
  obtain ⟨s, hget, ha⟩ := Engine.exists_of_hasActive (hp.attends hattends)
  have hnode := hp.rests hw hrests hget
  cases hp with
  | exhausted => exact absurd (t.cost_pos σ) (Nat.not_lt.2 hf.2)
  | stage hσ hstart =>
      obtain ⟨new, htold, hleads⟩ := h.2.2.perform hget hf.1 ha hnode hσ
      rw [hstart] at htold hleads
      exact ⟨h.1, h.2.1, new, htold, hleads⟩
  | unasked hask =>
      obtain ⟨pending, e₁, new, hok, -⟩ := Turn.tells_ask hget hr
      cases hask.symm.trans hok
  | @hears _ _ _ _ e₁ _ _ hask hhear =>
      obtain ⟨pending, e₂, new, hok, htold, htypes⟩ := Turn.tells_ask hget hr
      cases hask.symm.trans hok
      have hr₁ : e₁.replaced = [] ∧ e₁.store.get? t.sessionId = some s := by
        rcases Turn.start_ask_cases hr t with ⟨-, herr⟩ | ⟨pending', e₃, hok', hsame, hstore, -⟩
        · cases hask.symm.trans herr
        · cases hask.symm.trans hok'
          exact ⟨hsame.replaced.trans hr, hstore ▸ hget⟩
      have hleads := (h.2.2.announced hf.1.node htypes).hear hr₁.2 hr₁.1 none
      have hcalm := t.calm_hear none hr₁.1
      rw [hhear] at hleads hcalm
      exact ⟨h.1, h.2.1, new, htold.silent_right hcalm.silent, hleads⟩
  | @answered _ _ _ pending _ _ _ hhear =>
      have hleads := h.2.2.hear hget hr (some pending)
      have hcalm := t.calm_hear (some pending) hr
      rw [hhear] at hleads hcalm
      refine ⟨h.1, h.2.1, [], Engine.tellsOf_nil hcalm.silent.sink, ?_⟩
      rwa [List.append_nil]

/-- An operation that goes on takes its tale on, and whatever it tells is about its
session. -/
def TellsOn (L : Ledger) (call : Call) (es : List Event) (e : Engine) (p : Phase) (e' : Engine)
    (p' : Phase) : Prop :=
  ∃ new, e.Tells new e' ∧ (∀ event ∈ new, p.subject? = some event.sessionId) ∧
    p'.Tale L e.nextSession call (es ++ new)

/-- It may tell nothing. -/
theorem tellsOn_of_sink (hsink : e'.sink = e.sink) (h : p'.Tale L e.nextSession call es) :
    TellsOn L call es e p e' p' := by
  refine ⟨[], Engine.tells_nil hsink, fun _ hmem => absurd hmem List.not_mem_nil, ?_⟩
  rwa [List.append_nil]

/-- It may be over without having told anything. -/
theorem tellsOn_finished_of_sink (hsink : e'.sink = e.sink) (h : call.Told f [] out) :
    TellsOn L call [] e p e' (.finished out) :=
  tellsOn_of_sink hsink ⟨f, h, fun _ _ _ hmem => absurd hmem List.not_mem_nil,
    fun _ hmem => absurd hmem List.not_mem_nil⟩

/-- It may be over once it has told of the end of its session. -/
theorem tellsOn_finished_of_end {type : EventType} (hs : e.Sound L others)
    (hget : e.store.get? id = some s) (hsubject : p.subject? = some id)
    (hcall : call.session? = some id) (htells : ∃ event, e.Tells [event] e₁ ∧
      event.type = type ∧ event.sessionId = s.id) (hcalm : e₁.Calm e')
    (htold : ∀ f es, es.map Event.type = [type] → call.Told f es out) :
    TellsOn L call [] e p e' (.finished out) := by
  obtain ⟨event, htells, htype, hevent⟩ := htells
  have hid : ∀ x ∈ [event], x.sessionId = id := fun x hmem =>
    (congrArg Event.sessionId (List.mem_singleton.1 hmem)).trans
      (hevent.trans (KeyedList.key_of_find? hget))
  refine ⟨[event], htells.trans hcalm.silent.tells, fun x hmem => ?_, L.pin id,
    htold _ _ (congrArg (fun type => [type]) htype), fun i hi x hmem => ?_, fun x hmem => ?_⟩
  · rw [hid x hmem]
    exact hsubject
  · rw [hid x hmem]
    exact Option.some.inj (hcall.symm.trans hi)
  · rw [hid x hmem]
    exact ⟨(hs.stored hget).2.1, rfl⟩

/-- It may wait for the outside, of which its node has told. -/
theorem tellsOn_acting {pending : Turn.Pending} (hask : t.ask.start e = (.ok (some pending), e'))
    (h : (playing purpose lock left .dispatch t).Tale L next call es)
    (hget : e.store.get? t.sessionId = some s) (hr : e.replaced = [])
    (hnode : t.flow.node? t.node.id = some t.node) :
    TellsOn L call es e (playing purpose lock left .dispatch t) e'
      (.acting purpose lock left pending t) := by
  obtain ⟨pending', e₁, new, hok, htold, htypes⟩ := Turn.tells_ask hget hr
  cases hask.symm.trans hok
  exact ⟨new, htold.1, fun event hmem => congrArg some (htold.2 event hmem).symm, h.1,
    fun event hmem => (List.mem_append.1 hmem).elim (h.2.1 event) (htold.2 event),
    h.2.2.announced hnode htypes⟩

/-- It may go on to the next stage of its turn. -/
theorem Plays.tellsOn_continues {σ' : Stage} (hp : Plays e p purpose lock left σ t (.ok t') e')
    (hcall : call.Plays t.sessionId purpose) (hown : ∀ event ∈ es, event.sessionId = t.sessionId)
    (htold : e.TellsOf t.sessionId new e')
    (hleads : Turn.Leads t.flow purpose σ (es ++ new) (.ok t')) (hn : t'.next? σ = some σ')
    (left' : Nat) : TellsOn L call es e p e' (.playing purpose lock left' σ' t') := by
  have hid := hp.continues.sessionId
  rw [Turn.Leads, hn] at hleads
  refine ⟨new, htold.1, fun event hmem => ?_, hid ▸ hcall, fun event hmem => ?_, hleads⟩
  · rw [htold.2 event hmem]
    exact hp.subject?_eq
  · rw [hid]
    exact (List.mem_append.1 hmem).elim (hown event) (htold.2 event)

/-- It may be over once its turn is. -/
theorem Plays.tellsOn_concludes (hp : Plays e p purpose lock left σ t r e₁)
    (hcall : call.Plays t.sessionId purpose) (hown : ∀ event ∈ es, event.sessionId = t.sessionId)
    (htold : e.TellsOf t.sessionId new e₁)
    (hleads : Turn.Leads t.flow purpose σ (es ++ new) r)
    (hn : ∀ t', r = .ok t' → t'.next? σ = none) (hreplies : Replies purpose r out)
    (hsilent : e₁.Silent e') (hf : p.Fits L e) (hs : e.Sound L (p.Moving others)) :
    TellsOn L call es e p e' (.finished out) := by
  have hfits := (hp.leaves hs hf).1
  have hended : Turn.Ended t.flow (es ++ new) purpose r := by
    cases r with
    | error err => exact hleads
    | ok t' =>
        rw [Turn.Leads, hn t' rfl] at hleads
        exact hleads
  have hid : ∀ event ∈ es ++ new, event.sessionId = t.sessionId := fun event hmem =>
    (List.mem_append.1 hmem).elim (hown event) (htold.2 event)
  refine ⟨new, (htold.silent_right hsilent).1, fun event hnew => ?_, t.flow,
    told_of_ended hended hreplies hcall, fun i hi event hmem => ?_, fun event hmem => ?_⟩
  · rw [htold.2 event hnew]
    exact hp.subject?_eq
  · rw [hid event hmem]
    cases purpose with
    | settle c callerLock =>
        obtain ⟨c', rfl⟩ := hcall
        cases hi
    | answer =>
        obtain ⟨text, rfl⟩ := hcall
        exact Option.some.inj hi
  · rw [hid event hmem]
    exact ⟨hfits.issued, hfits.flow⟩

/-- **Tales.**  Every operation that goes on takes its tale on. -/
theorem Goes.tale (hg : Goes v e p p' e') (hstart : (p.step v).start e = (.ok p', e'))
    (h : p.Tale L next call es) (hattends : p.Attends e) (hs : e.Sound L (p.Moving others))
    (hf : p.Fits L e) (hw : p.Walks trail answers)
    (hrests : ∀ id s, e.store.get? id = some s → (trail id).getLast? = s.currentNode) :
    TellsOn L call es e p e' p' := by
  cases hg with
  | unserved _ =>
      obtain ⟨rfl, rfl⟩ := h
      exact tellsOn_finished_of_sink (f := .blank) rfl rfl
  | calls _ =>
      obtain ⟨rfl, rfl⟩ := h
      exact tellsOn_of_sink rfl ⟨⟨_, rfl⟩, rfl⟩
  | asks hcall =>
      obtain ⟨rfl, rfl⟩ := h
      exact tellsOn_of_sink rfl ⟨rfl, hcall, rfl⟩
  | opens hopen =>
      obtain ⟨-, rfl, expiry, n, rfl, hn, rfl⟩ := openSession_opened hopen
      exact tellsOn_of_sink rfl ⟨h.1, h.2, _, _, n, rfl, hn⟩
  | @resumes c f lock r out e₁ _ hopen hr hc =>
      obtain ⟨⟨c', rfl⟩, rfl⟩ := h
      have hsink : e'.sink = e.sink := by
        rcases openSession_cases hopen with rfl | rfl
        · exact hc.silent.sink
        · exact hc.silent.sink
      refine tellsOn_finished_of_sink (f := .blank) hsink ?_
      rcases r with err | s | ⟨s, t⟩
      · cases hr
        rfl
      · cases hr
        exact Or.inl rfl
      · cases hr
  | @stores c callerLock s t lock _ hstore =>
      obtain ⟨hcall, rfl, id, f, n, rfl, hn⟩ := h
      rcases storeSession_cases hstore with ⟨-, rfl, -⟩ | ⟨-, err, herr⟩
      · refine ⟨[_], rfl, fun event hmem => ?_, hcall, fun event hmem => ?_, ?_⟩
        · rw [List.mem_singleton.1 hmem]
          rfl
        · rw [List.mem_singleton.1 hmem]
          exact hattends.1.symm
        · exact Turn.tale_entry ⟨rfl, rfl⟩ rfl rfl hn rfl c callerLock
      · cases herr
  | drops hstore hc =>
      obtain ⟨⟨c', rfl⟩, rfl, -⟩ := h
      rcases storeSession_cases hstore with ⟨herr, -⟩ | ⟨rfl, -⟩
      · cases herr
      · exact tellsOn_finished_of_sink (f := .blank) hc.silent.sink rfl
  | @admits i text id lock t _ hadmission =>
      obtain ⟨rfl, hcall, rfl⟩ := h
      obtain ⟨rfl, s, f, n, -, -, -, -, rfl⟩ := admission_admitted hadmission
      cases hcall
      exact tellsOn_of_sink rfl ⟨⟨text, rfl⟩, fun _ hmem => absurd hmem List.not_mem_nil,
        .silent ⟨rfl, rfl⟩ rfl⟩
  | @refuses i text id lock a err e₁ _ hadmission hrefusal hc =>
      obtain ⟨rfl, hcall, rfl⟩ := h
      cases hcall
      rcases admission_cases hadmission with ⟨t, rfl, -⟩ | ⟨rfl, -⟩ | ⟨s, rfl, hget, -, -, rfl⟩
      · cases hrefusal
      · exact tellsOn_finished_of_sink (f := .blank) hc.silent.sink (Or.inl (Or.inl rfl))
      · cases hrefusal
        exact tellsOn_finished_of_end hs hget rfl rfl (e.tells_lapsed s e.now) hc.calm
          fun f es htypes => Or.inr ⟨rfl, htypes⟩
  | @ends i reason id lock r e₁ _ hend hc =>
      obtain ⟨rfl, hcall, rfl⟩ := h
      cases hcall
      rcases endSession_cases hend with ⟨rfl, err, rfl⟩ | ⟨s, hget, -, rfl, rfl⟩
      · exact tellsOn_finished_of_sink (f := .blank) hc.silent.sink rfl
      · exact tellsOn_finished_of_end hs hget rfl rfl (e.tells_terminated s reason) hc.calm
          fun f es htypes => htypes
  | @lapses i now id lock r e₁ _ hlapse hc =>
      obtain ⟨rfl, hcall, rfl⟩ := h
      cases hcall
      rcases lapseIfDue_cases hlapse with ⟨rfl, rfl⟩ | ⟨s, hget, -, -, rfl, rfl⟩
      · exact tellsOn_finished_of_sink (f := .blank) hc.silent.sink rfl
      · exact tellsOn_finished_of_end hs hget rfl rfl (e.tells_lapsed s now) hc.calm
          fun f es htypes => htypes
  | strays =>
      obtain ⟨rfl, hcall, -⟩ := h
      cases hcall
  | @waits purpose lock left t pending _ hask =>
      have hactive : e.hasActive t.sessionId = true := hattends
      obtain ⟨s, hget, -⟩ := Engine.exists_of_hasActive hactive
      exact tellsOn_acting hask h hget hs.replaced hf.1.node
  | continues hplays hn =>
      obtain ⟨hcall, hown, new, htold, hleads⟩ := hplays.tale h hattends hs.replaced hf hw hrests
      exact hplays.tellsOn_continues hcall hown htold hleads hn _
  | concludes hplays hn hc _ =>
      obtain ⟨hcall, hown, new, htold, hleads⟩ := hplays.tale h hattends hs.replaced hf hw hrests
      obtain ⟨s, hget, -⟩ := Engine.exists_of_hasActive (hplays.attends hattends)
      obtain ⟨s', hget', -⟩ := hplays.touches.1.stays s hget
      exact hplays.tellsOn_concludes hcall hown htold hleads hn (hplays.replies hn hstart hget')
        hc.silent hf hs

end Phase

/-! ## What tales say -/

namespace Phase

variable {p : Phase} {call : Call} {next : Nat}

/-- An operation that has told something and is not over is inside the section of the
session that it has told of. -/
theorem Tale.inside (h : p.Tale L next call es) (hopen : p.isFinished = false)
    (hmem : event ∈ es) : p.subject? = some event.sessionId ∧ event.sessionId ∈ p.inside := by
  cases p with
  | ready call' =>
      rw [h.2] at hmem
      exact absurd hmem List.not_mem_nil
  | opening c f lock =>
      rw [h.2] at hmem
      exact absurd hmem List.not_mem_nil
  | settling c callerLock s t lock =>
      rw [h.2.1] at hmem
      exact absurd hmem List.not_mem_nil
  | entering call' id lock =>
      rw [h.2.2] at hmem
      exact absurd hmem List.not_mem_nil
  | playing purpose lock left σ t =>
      rw [h.2.1 event hmem]
      exact ⟨rfl, by simp [inside]⟩
  | acting purpose lock left pending t =>
      rw [h.2.1 event hmem]
      exact ⟨rfl, by simp [inside]⟩
  | finished r => cases hopen

/-- An operation that has told nothing yet, and is about a session that was there
before, was asked for it. -/
theorem Tale.session? (h : p.Tale L next call []) (hid : p.subject? = some id)
    (hmade : p.made? = none) : call.session? = some id := by
  cases p with
  | settling c callerLock s t lock => cases hmade
  | entering call' i lock =>
      cases hid
      exact h.2.1
  | playing purpose lock left σ t =>
      cases hid
      obtain ⟨hcall, -, htale⟩ := h
      cases purpose with
      | settle c callerLock =>
          cases htale with
          | settles _ hstart _ _ _ => exact absurd rfl hstart.ne_nil
      | answer =>
          obtain ⟨text, rfl⟩ := hcall
          rfl
  | acting purpose lock left pending t =>
      cases hid
      obtain ⟨hcall, -, htale⟩ := h
      cases purpose with
      | settle c callerLock =>
          cases htale with
          | settles _ hstart _ _ => exact absurd rfl hstart.ne_nil
      | answer =>
          obtain ⟨text, rfl⟩ := hcall
          rfl
  | _ => cases hid

/-- What an operation has told of a session, given how far it has come. -/
def HasTold (f : Flow) (call : Call) (es : List Event) : Phase → Prop
  | finished r => call.Told f es r
  | _ => es = [] ∨ call.Telling f es

/-- An operation that was asked for a session tells of no other. -/
theorem Tale.own (h : p.Tale L next call es) (hcall : call.session? = some id) :
    ∀ event ∈ es, event.sessionId = id := by
  have hnone : es = [] → ∀ event ∈ es, event.sessionId = id := by
    rintro rfl event hmem
    exact absurd hmem List.not_mem_nil
  have hturn : ∀ {purpose : Purpose} {i : String}, call.Plays i purpose → i = id := by
    intro purpose i hplays
    cases purpose with
    | settle c callerLock =>
        obtain ⟨c', rfl⟩ := hplays
        cases hcall
    | answer =>
        obtain ⟨text, rfl⟩ := hplays
        exact Option.some.inj hcall
  cases p with
  | ready call' => exact hnone h.2
  | opening c f lock => exact hnone h.2
  | settling c callerLock s t lock => exact hnone h.2.1
  | entering call' i lock => exact hnone h.2.2
  | playing purpose lock left σ t => exact fun event hmem => (h.2.1 event hmem).trans (hturn h.1)
  | acting purpose lock left pending t =>
      exact fun event hmem => (h.2.1 event hmem).trans (hturn h.1)
  | finished r =>
      obtain ⟨f, -, hown, -⟩ := h
      exact hown id hcall

/-- What a turn has told before an interpretation or after one. -/
theorem telling_of_tale {t : Turn} {purpose : Purpose} {σ : Stage} {i : String}
    (h : t.Tale purpose σ es) (hcall : call.Plays i purpose) :
    es = [] ∨ call.Telling t.flow es := by
  cases h with
  | silent => exact Or.inl rfl
  | heard _ _ htype _ =>
      obtain ⟨text, rfl⟩ := hcall
      exact Or.inr (Or.inl (by simp [htype]))
  | answers _ htale _ _ _ =>
      obtain ⟨text, rfl⟩ := hcall
      exact Or.inr (Or.inr ⟨t.hops, htale⟩)
  | settles _ htale _ _ _ =>
      obtain ⟨c, rfl⟩ := hcall
      exact Or.inr ⟨t.hops, htale⟩

theorem telling_of_announced {t : Turn} {purpose : Purpose} {i : String}
    (h : t.Announced purpose es) (hcall : call.Plays i purpose) : call.Telling t.flow es := by
  cases h with
  | answers _ htale _ =>
      obtain ⟨text, rfl⟩ := hcall
      exact Or.inr ⟨t.hops, htale⟩
  | settles _ htale _ _ =>
      obtain ⟨c, rfl⟩ := hcall
      exact ⟨t.hops, htale⟩

/-- The tale of an operation goes by the flow that its session is pinned to. -/
theorem Tale.hasTold {e : Engine} (h : p.Tale L e.nextSession call es) (hf : p.Fits L e)
    (hid : ∀ event ∈ es, event.sessionId = id) : p.HasTold (L.pin id) call es := by
  have hflow : ∀ {t : Turn} {σ : Stage}, t.Fits L e.nextSession σ →
      (∀ event ∈ es, event.sessionId = t.sessionId) → es ≠ [] → t.flow = L.pin id := by
    intro t σ hfits hown hne
    obtain ⟨event, hmem⟩ := List.exists_mem_of_ne_nil es hne
    rw [hfits.flow, ← hown event hmem, hid event hmem]
  cases p with
  | ready call' => exact Or.inl h.2
  | opening c f lock => exact Or.inl h.2
  | settling c callerLock s t lock => exact Or.inl h.2.1
  | entering call' i lock => exact Or.inl h.2.2
  | playing purpose lock left σ t =>
      obtain ⟨hcall, hown, htale⟩ := h
      by_cases hne : es = []
      · exact Or.inl hne
      · rw [← hflow hf.1 hown hne]
        exact telling_of_tale htale hcall
  | acting purpose lock left pending t =>
      obtain ⟨hcall, hown, htale⟩ := h
      by_cases hne : es = []
      · exact Or.inl hne
      · rw [← hflow hf.1 hown hne]
        exact Or.inr (telling_of_announced htale hcall)
  | finished r =>
      obtain ⟨f, htold, -, hpinned⟩ := h
      by_cases hne : es = []
      · subst hne
        exact htold.of_nil (L.pin id)
      · obtain ⟨event, hmem⟩ := List.exists_mem_of_ne_nil es hne
        rw [← hid event hmem, ← (hpinned event hmem).2]
        exact htold

end Phase

end UssdFlows
