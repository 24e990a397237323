import UssdFlows.Proofs.Engine.Sinks
import UssdFlows.Proofs.Engine.Smooth

/-!
# What turns tell

The events that a turn hands to the sink are its *tale*.  It has one of two forms:
a session is started and settled (`StartTale`), or an input is received at the node
where its session rests, and answered (`InputTale`).

A turn tells its tale stage by stage.  What it has told when it stands before a stage
is said by `Turn.Tale`.  Only the first interpretation of a turn can be that of an
action, and only after that one can the session stay at its node; so each stage takes
the tale on in its form (`Turn.Tale.perform`), and what has been told in the end goes
with what the turn has come to (`Turn.Ended`).
-/

namespace UssdFlows

open EngineM

variable {L : Ledger} {e e' e₁ : Engine} {id : String} {s : Session} {f : Flow}
  {es new : List Event} {event : Event}

/-! ## Events of one session -/

/-- The sink is handed some events, all of one session. -/
def Engine.TellsOf (e : Engine) (id : String) (es : List Event) (e' : Engine) : Prop :=
  e.Tells es e' ∧ ∀ event ∈ es, event.sessionId = id

namespace Engine

theorem tellsOf_nil (h : e'.sink = e.sink) : e.TellsOf id [] e' :=
  ⟨tells_nil h, fun _ hmem => absurd hmem List.not_mem_nil⟩

theorem tellsOf_event (hid : s.id = id) {type : EventType} {node : Option String}
    {data : List (String × Value)} {now : Instant}
    (h : e.Tells [.ofSession type s node data now] e') :
    e.TellsOf id [.ofSession type s node data now] e' := by
  refine ⟨h, fun event hmem => ?_⟩
  rw [List.mem_singleton.1 hmem]
  exact hid

theorem tells_lapsed (e : Engine) (s : Session) (now : Instant) : ∃ event,
    e.Tells [event] (e.lapsed s now) ∧ event.type = .sessionExpired ∧ event.sessionId = s.id :=
  ⟨_, rfl, rfl, rfl⟩

theorem tells_terminated (e : Engine) (s : Session) (reason : String) : ∃ event,
    e.Tells [event] (e.terminated s reason) ∧ event.type = .sessionTerminated ∧
      event.sessionId = s.id := ⟨_, rfl, rfl, rfl⟩

theorem TellsOf.silent_right (h : e.TellsOf id es e₁) (hs : e₁.Silent e') :
    e.TellsOf id es e' := by
  have htold := h.1.trans hs.tells
  rw [List.append_nil] at htold
  exact ⟨htold, h.2⟩

end Engine

/-! ## Forms of tales -/

/-- The event that announces the action of a node, if it has one. -/
def Node.announced (n : Node) : List EventType := if n.isAction then [.actionInitiated] else []

theorem Node.announced_of_isTransient {n : Node} (h : n.isTransient = true) : n.announced = [] := by
  rw [announced, not_isAction_of_isTransient h, if_neg Bool.false_ne_true]

/-- Events of so many visited nodes. -/
def visits (hops : Nat) : List EventType := List.replicate hops .nodeVisited

theorem visits_succ (hops : Nat) : visits (hops + 1) = visits hops ++ [.nodeVisited] :=
  List.replicate_succ'

/-- The start of a flow is a conditional. -/
def Flow.StartsTransient (f : Flow) : Prop :=
  ∀ n, f.node? f.startNode = some n → n.isTransient = true

/-- A session is started and settled: it visits some nodes, and more may follow; but
only if the start of its flow is a conditional. -/
structure StartTale (f : Flow) (hops : Nat) (ending : List EventType) (es : List Event) :
    Prop where
  types : es.map Event.type = .sessionStarted :: (visits hops ++ ending)
  start : hops ≠ 0 ∨ ending ≠ [] → f.StartsTransient

/-- An input is received at the node where its session rests, the action of the node
is announced if it has one, and more follows. -/
def InputTale (f : Flow) (later : List EventType) (es : List Event) : Prop :=
  ∃ n event rest, f.node? n.id = some n ∧ es = event :: rest ∧ event.type = .inputReceived ∧
    event.node = some n.id ∧ rest.map Event.type = n.announced ++ later

/-- A new session has been settled. -/
def SettledTale (f : Flow) (es : List Event) : Prop :=
  ∃ hops ending, StartTale f hops ending es ∧ (ending = [] ∨ ending = [.sessionCompleted])

/-- A turn has answered its input: by an error, by completing the session, or by
showing another node. -/
def AnswerTale (f : Flow) (isError isFinished : Bool) (es : List Event) : Prop :=
  if isError then InputTale f [.errorOccurred] es
  else if isFinished then ∃ hops, InputTale f (visits hops ++ [.sessionCompleted]) es
  else ∃ hops, InputTale f (visits (hops + 1)) es

/-- A turn has failed before its session has moved. -/
def FailedTale (f : Flow) (es : List Event) : Prop := es = [] ∨ InputTale f [] es

/-- More is told. -/
theorem InputTale.append {later more : List EventType} (h : InputTale f later es)
    (hnew : new.map Event.type = more) : InputTale f (later ++ more) (es ++ new) := by
  obtain ⟨n, event, rest, hn, rfl, htype, hnode, hrest⟩ := h
  refine ⟨n, event, rest ++ new, hn, rfl, htype, hnode, ?_⟩
  rw [List.map_append, hrest, hnew, List.append_assoc]

theorem InputTale.visit {hops : Nat} (h : InputTale f (visits hops) es)
    (hnew : new.map Event.type = [.nodeVisited]) : InputTale f (visits (hops + 1)) (es ++ new) := by
  rw [visits_succ]
  exact h.append hnew

theorem StartTale.append {hops : Nat} {more : List EventType} (h : StartTale f hops [] es)
    (hstart : f.StartsTransient) (hnew : new.map Event.type = more) :
    StartTale f hops more (es ++ new) where
  types := by
    rw [List.map_append, h.types, hnew, List.append_nil]
    rfl
  start := fun _ => hstart

theorem StartTale.visit {hops : Nat} (h : StartTale f hops [] es) (hstart : f.StartsTransient)
    (hnew : new.map Event.type = [.nodeVisited]) : StartTale f (hops + 1) [] (es ++ new) where
  types := by
    rw [List.map_append, h.types, hnew, visits_succ, List.append_nil, List.append_nil]
    rfl
  start := fun _ => hstart

theorem StartTale.ne_nil {hops : Nat} {ending : List EventType} (h : StartTale f hops ending es) :
    es ≠ [] := by
  rintro rfl
  cases h.types

/-! ## Tales of turns -/

namespace Turn

variable {t t' : Turn} {purpose : Purpose} {σ : Stage}

/-- Nothing is to be shown of the turn yet. -/
def IsPlain (t : Turn) : Prop := t.error = none ∧ t.isFinished = false

/-- What a turn has told when it stands before a stage. -/
inductive Tale (t : Turn) : Purpose → Stage → List Event → Prop where
  | silent (hplain : t.IsPlain) (hhops : t.hops = 0) : Tale t .answer .recordInput []
  | heard {event : Event} (hplain : t.IsPlain) (hhops : t.hops = 0)
      (htype : event.type = .inputReceived) (hnode : event.node = some t.node.id) :
      Tale t .answer .dispatch [event]
  | answers {σ : Stage} {es : List Event} (hplain : t.IsPlain)
      (htale : InputTale t.flow (visits t.hops) es) (hsmooth : t.IsSmooth σ)
      (hreprompt : σ = .reprompt → t.hops = 0) (hrespond : σ = .respond → 0 < t.hops) :
      Tale t .answer σ es
  | settles {c : Caller} {callerLock : Nat} {σ : Stage} {es : List Event} (hplain : t.IsPlain)
      (htale : StartTale t.flow t.hops [] es) (hsmooth : t.IsSmooth σ) (hreprompt : σ ≠ .reprompt)
      (hstart : σ ≠ .respond → t.flow.StartsTransient) : Tale t (.settle c callerLock) σ es

/-- What a turn has told when the action of its node has been announced. -/
inductive Announced (t : Turn) : Purpose → List Event → Prop where
  | answers {es : List Event} (hplain : t.IsPlain) (htale : InputTale t.flow (visits t.hops) es)
      (hhops : t.hops ≠ 0 → t.node.isTransient = true) : Announced t .answer es
  | settles {c : Caller} {callerLock : Nat} {es : List Event} (hplain : t.IsPlain)
      (htale : StartTale t.flow t.hops [] es) (hnode : t.node.isTransient = true)
      (hstart : t.flow.StartsTransient) : Announced t (.settle c callerLock) es

/-- What a turn has told when it is over. -/
def Ended (f : Flow) (es : List Event) : Purpose → Except EngineError Turn → Prop
  | .answer, .ok t => AnswerTale f t.error.isSome t.isFinished es
  | .answer, .error _ => FailedTale f es
  | .settle .., .ok _ => SettledTale f es
  | .settle .., .error _ => False

/-- What a turn has told when a stage has been performed. -/
def Leads (f : Flow) (purpose : Purpose) (σ : Stage) (es : List Event) :
    Except EngineError Turn → Prop
  | .ok t' => match t'.next? σ with
    | some σ' => t'.Tale purpose σ' es
    | none => Ended f es purpose (.ok t')
  | .error err => Ended f es purpose (.error err)

/-- At the start of its flow a turn that settles a session has told that it is started. -/
theorem tale_entry (hplain : t.IsPlain) (hhops : t.hops = 0) (hinput : t.input = none)
    (hnode : t.flow.node? t.flow.startNode = some t.node)
    (htype : event.type = .sessionStarted) (c : Caller) (callerLock : Nat) :
    t.Tale (.settle c callerLock) t.entry [event] := by
  have htale : StartTale t.flow t.hops [] [event] :=
    ⟨by simp [htype, hhops, visits], fun h => h.elim (absurd hhops) (absurd rfl)⟩
  refine .settles hplain htale (isSmooth_entry hinput) ?_ fun hne n hn => ?_
  · rw [entry, hinput]
    cases t.node.isTransient <;> exact fun hσ => Stage.noConfusion hσ
  · cases hnode.symm.trans hn
    rw [entry, hinput] at hne
    by_contra htransient
    exact hne (by simp [htransient])

section Stages

variable (hget : e.store.get? t.sessionId = some s)

include hget

theorem tale_recordInput (hplain : t.IsPlain) (hhops : t.hops = 0)
    (hnode : s.currentNode = some t.node.id) :
    ∃ new, e.TellsOf t.sessionId new (t.recordInput.start e).2 ∧
      Leads t.flow .answer .recordInput new (t.recordInput.start e).1 := by
  rw [start_recordInput hget]
  cases hr : s.received? (t.input.getD "") e.now e.settings.sessionTimeout with
  | none =>
      exact ⟨[], Engine.tellsOf_nil rfl, Or.inl rfl⟩
  | some s' =>
      obtain ⟨expiry, -, rfl⟩ := Session.received?_eq_some hr
      have hid : ((s.record (t.input.getD "") e.now).expiringAt expiry).id = t.sessionId :=
        KeyedList.key_of_find? (x := s) hget
      exact ⟨_, Engine.tellsOf_event hid rfl, .heard hplain hhops rfl hnode⟩

/-- A node that has an action announces it. -/
theorem tells_ask (hr : e.replaced = []) : ∃ pending e₁ new, t.ask.start e = (.ok pending, e₁) ∧
    e.TellsOf t.sessionId new e₁ ∧ new.map Event.type = t.node.announced := by
  cases hn : t.node.isAction with
  | false =>
      refine ⟨none, e, [], start_ask_of_not_isAction hget hr hn, Engine.tellsOf_nil rfl, ?_⟩
      rw [Node.announced, hn, if_neg Bool.false_ne_true]
      rfl
  | true =>
      have htold : e.Tells [.ofSession .actionInitiated s (some t.node.id)
          [("action", .text t.node.kind.text)] e.now] (e.requested t.node s) := by
        unfold Engine.requested
        split <;> rfl
      refine ⟨_, _, _, start_ask_of_isAction hget hr hn,
        Engine.tellsOf_event (KeyedList.key_of_find? hget) htold, ?_⟩
      rw [Node.announced, hn, if_pos rfl]
      rfl

/-- What is heard is interpreted by the node. -/
theorem start_hear_fst (hr : e.replaced = []) (pending : Option Pending) :
    ((t.hear pending).start e).1 =
      match t.node.interpret s.bindings t.givenInput (actionResult e pending) with
      | .ok o => .ok (t.heard o)
      | .error err => .error (.handler err) := by
  rw [start_hear hget hr]
  dsimp only
  cases t.node.interpret s.bindings t.givenInput (actionResult e pending) <;> rfl

/-- An announced action is carried out in silence, and the turn goes on or fails. -/
theorem Announced.hear (h : t.Announced purpose es) (hr : e.replaced = [])
    (pending : Option Pending) :
    Leads t.flow purpose .dispatch es ((t.hear pending).start e).1 := by
  have hheard := start_hear_fst hget hr pending
  have hleads : t.node.isTransient = true → ∃ o, ((t.hear pending).start e).1 = .ok (t.heard o) ∧
      (t.heard o).afterDispatch ≠ .reprompt := by
    intro htransient
    obtain ⟨target, metadata, ho⟩ := Node.interpret_of_isTransient htransient s.bindings
      t.givenInput (actionResult e pending)
    rw [ho] at hheard
    refine ⟨_, hheard, ?_⟩
    cases target <;> exact fun hσ => Stage.noConfusion hσ
  have hrespond : ∀ o, (t.heard o).afterDispatch ≠ .respond := by
    rintro ⟨move, captured, metadata⟩
    cases move <;> exact fun hσ => Stage.noConfusion hσ
  cases h with
  | answers hplain htale hhops =>
      have hnext : ∀ o, ((t.heard o).afterDispatch = .reprompt → t.hops = 0) →
          Leads t.flow .answer .dispatch es (.ok (t.heard o)) := fun o ho =>
        .answers hplain htale (t.heard o).isSmooth_afterDispatch ho fun hσ => absurd hσ (hrespond o)
      by_cases hzero : t.hops = 0
      · rw [hheard]
        cases t.node.interpret s.bindings t.givenInput (actionResult e pending) with
        | ok o => exact hnext o fun _ => hzero
        | error err =>
            rw [hzero] at htale
            exact Or.inr htale
      · obtain ⟨o, hok, hno⟩ := hleads (hhops hzero)
        rw [hok]
        exact hnext o fun hσ => absurd hσ hno
  | settles hplain htale hnode hstart =>
      obtain ⟨o, hok, hno⟩ := hleads hnode
      rw [hok]
      exact .settles hplain htale (t.heard o).isSmooth_afterDispatch hno fun _ => hstart

omit hget in
/-- The tale of a turn before an interpretation goes on with the announcement. -/
theorem Tale.announced (h : t.Tale purpose .dispatch es)
    (hnode : t.flow.node? t.node.id = some t.node)
    (hnew : new.map Event.type = t.node.announced) : t.Announced purpose (es ++ new) := by
  have hsilent : t.IsSmooth .dispatch → new = [] := by
    intro hsmooth
    rw [Node.announced_of_isTransient (hsmooth.2 rfl)] at hnew
    exact List.map_eq_nil_iff.1 hnew
  cases h with
  | @heard event hplain hhops htype hat =>
      refine .answers hplain ⟨t.node, event, new, hnode, rfl, htype, hat, ?_⟩ fun hne =>
        absurd hhops hne
      rw [hnew, hhops, visits, List.replicate_zero, List.append_nil]
  | answers hplain htale hsmooth _ _ =>
      rw [hsilent hsmooth, List.append_nil]
      exact .answers hplain htale fun _ => hsmooth.2 rfl
  | settles hplain htale hsmooth _ hstart =>
      rw [hsilent hsmooth, List.append_nil]
      exact .settles hplain htale (hsmooth.2 rfl) (hstart nofun)

theorem Tale.advance (h : t.Tale purpose .advance es) (hf : t.Fits L e.nextSession .advance) :
    ∃ new, e.TellsOf t.sessionId new (t.advance.start e).2 ∧
      Leads t.flow purpose .advance (es ++ new) (t.advance.start e).1 := by
  obtain ⟨o, target, ho, htarget, hmem⟩ := hf.leads rfl
  obtain ⟨n, hn, rfl, -, -⟩ := hf.target hmem
  rw [start_advance hget ho htarget hn]
  have hid : (s.movedTo n e.now).id = t.sessionId := KeyedList.key_of_find? (x := s) hget
  refine ⟨_, Engine.tellsOf_event hid rfl, ?_⟩
  have hsmooth := (t.arrived n).isSmooth_afterAdvance
  have hafter : (t.arrived n).afterAdvance ≠ .reprompt := by
    unfold afterAdvance
    split <;> exact fun hσ => Stage.noConfusion hσ
  cases h with
  | answers hplain htale _ _ _ =>
      exact .answers hplain (htale.visit rfl) hsmooth (fun hσ => absurd hσ hafter)
        fun _ => Nat.succ_pos _
  | settles hplain htale _ _ hstart =>
      exact .settles hplain (htale.visit (hstart nofun) rfl) hsmooth hafter fun _ => hstart nofun

theorem Tale.complete (h : t.Tale purpose .complete es) (hf : t.Fits L e.nextSession .complete)
    (ha : s.isActive = true) :
    ∃ new, e.TellsOf t.sessionId new (t.complete.start e).2 ∧
      Leads t.flow purpose .complete (es ++ new) (t.complete.start e).1 := by
  obtain ⟨o, ho⟩ := hf.ends rfl
  rw [start_complete hget ho ha]
  have hid : ((s.capture o.captured).finishedAt e.now).id = t.sessionId :=
    KeyedList.key_of_find? (x := s) hget
  refine ⟨_, Engine.tellsOf_event hid rfl, ?_⟩
  cases h with
  | answers hplain htale _ _ _ =>
      show AnswerTale t.flow t.error.isSome true _
      rw [hplain.1]
      exact ⟨t.hops, htale.append rfl⟩
  | settles hplain htale _ _ hstart =>
      exact ⟨t.hops, [.sessionCompleted], htale.append (hstart nofun) rfl, Or.inr rfl⟩

theorem Tale.reprompt (h : t.Tale purpose .reprompt es) :
    ∃ new, e.TellsOf t.sessionId new (t.reprompt.start e).2 ∧
      Leads t.flow purpose .reprompt (es ++ new) (t.reprompt.start e).1 := by
  rw [start_reprompt hget]
  refine ⟨_, Engine.tellsOf_event (KeyedList.key_of_find? hget) rfl, ?_⟩
  cases h with
  | answers hplain htale _ hreprompt _ =>
      rw [hreprompt rfl] at htale
      exact htale.append rfl
  | settles _ _ _ hreprompt _ => exact absurd rfl hreprompt

theorem Tale.respond (h : t.Tale purpose .respond es) :
    e.TellsOf t.sessionId [] (t.respond.start e).2 ∧
      Leads t.flow purpose .respond es (t.respond.start e).1 := by
  rw [start_respond hget]
  refine ⟨Engine.tellsOf_nil rfl, ?_⟩
  cases h with
  | answers hplain htale _ _ hrespond =>
      obtain ⟨hops, hhops⟩ := Nat.exists_eq_succ_of_ne_zero (Nat.ne_of_gt (hrespond rfl))
      show AnswerTale t.flow t.error.isSome t.isFinished _
      rw [hplain.1, hplain.2]
      rw [hhops] at htale
      exact ⟨hops, htale⟩
  | settles hplain htale _ _ _ => exact ⟨t.hops, [], htale, Or.inl rfl⟩

/-- **Stages.**  Each stage takes the tale of its turn on. -/
theorem Tale.perform (h : t.Tale purpose σ es) (hf : t.Fits L e.nextSession σ)
    (ha : s.isActive = true) (hnode : s.currentNode = some t.node.id) (hσ : σ ≠ .dispatch) :
    ∃ new, e.TellsOf t.sessionId new ((t.perform σ).start e).2 ∧
      Leads t.flow purpose σ (es ++ new) ((t.perform σ).start e).1 := by
  cases σ with
  | recordInput =>
      cases h with
      | silent hplain hhops => exact tale_recordInput hget hplain hhops hnode
      | answers _ _ hsmooth _ _ => exact absurd rfl hsmooth.1
      | settles _ _ hsmooth _ _ => exact absurd rfl hsmooth.1
  | dispatch => exact absurd rfl hσ
  | advance => exact h.advance hget hf
  | complete => exact h.complete hget hf ha
  | reprompt => exact h.reprompt hget
  | respond =>
      obtain ⟨htold, hleads⟩ := h.respond hget
      exact ⟨[], htold, by rwa [List.append_nil]⟩

end Stages

end Turn

end UssdFlows
