import UssdFlows.Proofs.Flow.Distances
import UssdFlows.Proofs.Service.Finality

/-!
# Sessions keep to the edges

Which edges a node has is declared with the node, and which way an input leads is
decided by its handler.  The two agree: what comes out of an interpretation is what
the node allows (`Turn.heard_of_dispatch`).  So a session goes from node to node along
the edges that the adjacency of its flow lists, and ends where the flow lets it end,
whichever operations run side by side (`Service.moves_along_edges`).

The flows that are served need not be valid here.  An edge may lead to a node that
does not exist; no session goes along it.

A turn is *on track* (`Turn.OnTrack`) if it goes on with its session from the node
where that rests, and a move or the end that it is about to make is allowed there.
What an operation on track does takes every session along its flow
(`Session.GoesAlong`), and so the session stays *on track* itself
(`Session.OnTrack`): it rests where a walk along the edges can lead.
-/

namespace UssdFlows

open EngineM Relation

variable {e e' e₁ : Engine} {v : Visitor} {id : String} {s s' : Session} {f : Flow} {n : Node}
  {r r' : Registry}

/-! ## What is heard at a node -/

namespace Turn

variable {t t' : Turn}

theorem heard_of_hear (hr : e.replaced = []) {pending : Option Pending}
    (h : (t.hear pending).start e = (.ok t', e')) : ∃ o, t' = t.heard o ∧ t.node.Allows o := by
  cases hget : e.store.get? t.sessionId with
  | none =>
      rw [start_hear_of_missing hget] at h
      cases h
  | some s =>
      rw [start_hear hget hr] at h
      dsimp only at h
      cases ho : t.node.interpret s.bindings t.givenInput (actionResult e pending) with
      | error err =>
          rw [ho] at h
          cases h
      | ok o =>
          rw [ho] at h
          cases h
          exact ⟨o, rfl, Node.allows_of_interpret ho⟩

/-- An interpretation that succeeds has an outcome that the node allows. -/
theorem heard_of_dispatch (hr : e.replaced = []) (h : t.dispatch.start e = (.ok t', e')) :
    ∃ o, t' = t.heard o ∧ t.node.Allows o := by
  rw [dispatch] at h
  rcases start_ask_cases hr t with ⟨-, hask⟩ | ⟨pending, e₁, hask, hsame, -, -⟩
  · rw [start_bind_of_error hask] at h
    cases h
  · rw [start_bind_of_ok hask] at h
    exact heard_of_hear (hsame.replaced.trans hr) h

/-- A turn goes to its end only by an outcome that ends the session. -/
theorem isFinal_of_afterDispatch {o : Outcome} (ho : t.outcome = some o)
    (h : t.afterDispatch = .complete) : o.isFinal = true := by
  rw [afterDispatch, ho] at h
  dsimp only at h
  cases hmove : o.move with
  | finish => rw [Outcome.isFinal, hmove, beq_self_eq_true]
  | _ =>
      rw [hmove] at h
      cases h

end Turn

/-! ## Walks along the edges -/

namespace Flow

/-- Where a node leads is listed with it: as a successor, or as an edge to no node. -/
theorem mem_successors_or_mem_dangling (hn : f.node? n.id = some n) {target : String}
    (ht : target ∈ n.targets) :
    target ∈ f.successors n.id ∨ (n.id, target) ∈ f.dangling := by
  cases hnode : f.hasNode target with
  | true => exact Or.inl (mem_successors_iff.2 (edge_of_node? hn ht hnode))
  | false =>
      have hreference : (n.id, target) ∈ f.references :=
        List.mem_flatMap.2 ⟨n, KeyedList.mem_of_find? hn, List.mem_map_of_mem ht⟩
      refine Or.inr (List.mem_filter.2 ⟨hreference, ?_⟩)
      simp only [hnode, Bool.not_false]

theorem mem_reachable_self {a : String} (h : f.node? a = some n) : a ∈ f.reachable a :=
  mem_reachable_iff.2 ⟨hasNode_of_node? h, .refl⟩

theorem mem_reachable_of_mem_successors {a b c : String} (h : b ∈ f.reachable a)
    (hc : c ∈ f.successors b) : c ∈ f.reachable a := by
  obtain ⟨ha, hwalk⟩ := mem_reachable_iff.1 h
  exact mem_reachable_iff.2 ⟨ha, hwalk.tail (mem_successors_iff.1 hc)⟩

end Flow

namespace Session

/-- The session a while later, when it has gone along one edge of its flow at most, and
was completed, if it was, where a session may end. -/
structure GoesAlong (f : Flow) (s s' : Session) : Prop where
  flowId : s'.flowId = s.flowId
  flowVersion : s'.flowVersion = s.flowVersion
  node : s'.currentNode = s.currentNode ∨ s'.isActive = true ∧
    ∃ a b, s.currentNode = some a ∧ s'.currentNode = some b ∧ b ∈ f.successors a
  completed : s'.status = .completed → s.status = .completed ∨
    ∃ n, s'.currentNode = some n.id ∧ f.node? n.id = some n ∧ n.MayEnd

theorem GoesAlong.refl (f : Flow) (s : Session) : s.GoesAlong f s :=
  ⟨rfl, rfl, Or.inl rfl, Or.inl⟩

theorem GoesAlong.of_same (hflow : s'.flowId = s.flowId) (hversion : s'.flowVersion = s.flowVersion)
    (hnode : s'.currentNode = s.currentNode)
    (hstatus : s'.status = .completed → s.status = .completed) : s.GoesAlong f s' :=
  ⟨hflow, hversion, Or.inl hnode, fun hc => Or.inl (hstatus hc)⟩

/-- The session rests where a walk from the start of its flow can lead, and has been
completed only where a session may end. -/
def OnTrack (f : Flow) (s : Session) : Prop :=
  ∃ n, s.currentNode = some n.id ∧ f.node? n.id = some n ∧ n.id ∈ f.reachable f.startNode ∧
    (s.status = .completed → n.MayEnd)

theorem GoesAlong.onTrack (h : s.GoesAlong f s') (ht : s.OnTrack f) : s'.OnTrack f := by
  obtain ⟨n, hnode, hn, hreach, hend⟩ := ht
  rcases h.node with hsame | ⟨ha, a, b, hfrom, hto, hedge⟩
  · refine ⟨n, hsame.trans hnode, hn, hreach, fun hc => ?_⟩
    rcases h.completed hc with hc | ⟨m, hm, hfound, hend'⟩
    · exact hend hc
    · have hid : m.id = n.id := Option.some.inj (hm.symm.trans (hsame.trans hnode))
      rw [hid, hn] at hfound
      cases hfound
      exact hend'
  · have hid : n.id = a := Option.some.inj (hnode.symm.trans hfrom)
    subst hid
    obtain ⟨m, hm⟩ := Option.isSome_iff_exists.1 (Flow.hasNode_of_mem_successors hedge)
    have hid : m.id = b := KeyedList.key_of_find? hm
    subst hid
    refine ⟨m, hto, hm, Flow.mem_reachable_of_mem_successors hreach hedge, fun hc => ?_⟩
    -- a session that has just moved is not over
    rw [isActive, hc] at ha
    cases ha

end Session

namespace Engine

/-- Every session that stays stored goes along the flow that it is pinned to. -/
def GoesAlong (e e' : Engine) : Prop :=
  ∀ id s s' f, e.store.get? id = some s → e'.store.get? id = some s' →
    e.registry.version? s.flowId s.flowVersion = some f → s.GoesAlong f s'

theorem goesAlong_of_sub (h : ∀ id s, e'.store.get? id = some s →
    e.store.get? id = some s ∨ e.store.get? id = none) : e.GoesAlong e' := by
  intro id s s' f hget hget' _
  rcases h id s' hget' with hsame | hnone
  · cases hget.symm.trans hsame
    exact .refl f _
  · cases hget.symm.trans hnone

theorem goesAlong_of_store (h : e'.store = e.store) : e.GoesAlong e' :=
  goesAlong_of_sub fun _ _ hget => Or.inl (h ▸ hget)

theorem GoesAlong.store_right (h : e.GoesAlong e₁) (hstore : e'.store = e₁.store) :
    e.GoesAlong e' := by
  intro id s s' f hget hget' hf
  exact h id s s' f hget (hstore ▸ hget') hf

/-- One session goes along its flow, and the others stay as they are. -/
theorem goesAlong_of_keep (hget : e.store.get? id = some s) (hstore : e'.store = (e.keep s').store)
    (hid : s'.id = s.id)
    (h : ∀ f, e.registry.version? s.flowId s.flowVersion = some f → s.GoesAlong f s') :
    e.GoesAlong e' := by
  have hid' : s'.id = id := hid.trans (KeyedList.key_of_find? hget)
  intro j u u' f hu hu' hf
  rw [hstore, get?_keep, hid'] at hu'
  split at hu'
  · rename_i hj
    subst hj
    cases hget.symm.trans hu
    cases hu'
    exact h f hf
  · cases hu.symm.trans hu'
    exact .refl f _

/-- A session is ended where it rests, but not completed. -/
theorem goesAlong_of_ended (hget : e.store.get? id = some s)
    (hstore : e'.store = (e.keep s').store) (hid : s'.id = s.id) (hflow : s'.flowId = s.flowId)
    (hversion : s'.flowVersion = s.flowVersion) (hnode : s'.currentNode = s.currentNode)
    (hstatus : s'.status ≠ .completed) : e.GoesAlong e' :=
  goesAlong_of_keep hget hstore hid fun _ _ =>
    .of_same hflow hversion hnode fun hc => absurd hc hstatus

/-- What neither moves nor ends a session leaves it where it is. -/
theorem Touches.goesAlong {may : Effect → Prop} (h : e.Touches may id e') (hmove : ¬ may .move)
    (hfinish : ¬ may .finish) : e.GoesAlong e' := by
  intro j s s' f hget hget' _
  by_cases hj : j = id
  · subst hj
    obtain ⟨s₁, hget₁, hfollows⟩ := h.own s' hget'
    cases hget.symm.trans hget₁
    refine .of_same hfollows.flowId hfollows.flowVersion (hfollows.node hmove) fun hc => ?_
    rw [← hfollows.status hfinish]
    exact hc
  · rw [h.others j hj, hget] at hget'
    cases hget'
    exact .refl f _

end Engine

/-! ## Turns on track -/

namespace Turn

variable {t t' : Turn} {σ σ' : Stage}

/-- A turn goes on with a session: in the version of the flow that the session is pinned
to, from the node where it rests. -/
structure Pursues (r : Registry) (s : Session) (t : Turn) : Prop where
  pinned : r.version? s.flowId s.flowVersion = some t.flow
  rests : s.currentNode = some t.node.id
  found : t.flow.node? t.node.id = some t.node

theorem Pursues.retained (h : t.Pursues r s) (hr : r.Retains r') : t.Pursues r' s :=
  ⟨hr _ _ _ h.pinned, h.rests, h.found⟩

/-- A turn goes on with a session that is stored, and the move or the end that it is about
to make is allowed. -/
structure OnTrack (e : Engine) (t : Turn) (σ : Stage) : Prop where
  pursues : ∃ s, e.store.get? t.sessionId = some s ∧ t.Pursues e.registry s
  allowed : σ = .advance ∨ σ = .complete →
    ∃ o, t.outcome = some o ∧ t.node.Allows o ∧ (σ = .complete → o.isFinal = true)

/-- The session of a turn is still pursued after a stage that does not move it. -/
theorem OnTrack.pursues_of_touches {may : Effect → Prop} (h : t.OnTrack e σ)
    (htouches : e.Touches may t.sessionId e') (hmove : ¬ may .move)
    (hid : t'.sessionId = t.sessionId) (hflow : t'.flow = t.flow) (hnode : t'.node = t.node) :
    ∃ s, e'.store.get? t'.sessionId = some s ∧ t'.Pursues e'.registry s := by
  obtain ⟨s, hget, hpursues⟩ := h.pursues
  obtain ⟨s', hget', hfollows⟩ := htouches.stays s hget
  refine ⟨s', by rw [hid, hget'], ?_, ?_, by rw [hflow, hnode]; exact hpursues.found⟩
  · rw [hfollows.flowId, hfollows.flowVersion, hflow, htouches.service.version?]
    exact hpursues.pinned
  · rw [hfollows.node hmove, hnode]
    exact hpursues.rests

/-- A turn begins on track with the session that it pursues. -/
theorem onTrack_entry (hget : e.store.get? t.sessionId = some s) (h : t.Pursues e.registry s) :
    t.OnTrack e t.entry where
  pursues := ⟨s, hget, h⟩
  allowed := fun hσ => by
    have hentry : t.entry ≠ .advance ∧ t.entry ≠ .complete := by
      unfold entry
      split
      · exact ⟨nofun, nofun⟩
      · split <;> exact ⟨nofun, nofun⟩
    exact absurd hσ (not_or.2 hentry)

theorem Pursues.goesAlong_moved (h : t.Pursues r s) (ha : s.isActive = true) {o : Outcome}
    (hallows : t.node.Allows o) {target : String} (ht : o.target? = some target)
    (hn : t.flow.node? target = some n) (now : Instant) :
    s.GoesAlong t.flow ((s.movedTo n now).capture o.captured) where
  flowId := rfl
  flowVersion := rfl
  node := by
    have hid : n.id = target := KeyedList.key_of_find? hn
    have hedge := Flow.edge_of_node? h.found (hallows.target target ht) (Flow.hasNode_of_node? hn)
    exact Or.inr ⟨ha, t.node.id, n.id, h.rests, rfl, hid ▸ Flow.mem_successors_iff.2 hedge⟩
  completed := fun hc => Or.inl hc

theorem Pursues.goesAlong_finished (h : t.Pursues r s) (hend : t.node.MayEnd) (s' : Session)
    (hflow : s'.flowId = s.flowId) (hversion : s'.flowVersion = s.flowVersion)
    (hnode : s'.currentNode = s.currentNode) : s.GoesAlong t.flow s' where
  flowId := hflow
  flowVersion := hversion
  node := Or.inl hnode
  completed := fun _ => Or.inr ⟨t.node, hnode.trans h.rests, h.found, hend⟩

end Turn

namespace Phase

variable {p p' : Phase} {purpose : Purpose} {lock left : Nat} {σ σ' : Stage} {t t' : Turn}
  {result : Except EngineError Turn}

/-- A move that an operation makes takes the stored session to a node of the flow, or
nothing is done. -/
theorem Plays.advance_cases (hp : Plays e p purpose lock left .advance t result e')
    (hget : e.store.get? t.sessionId = some s) :
    (e' = e ∧ ∃ err, result = .error err) ∨
      ∃ o target n, t.outcome = some o ∧ o.target? = some target ∧
        t.flow.node? target = some n ∧ result = .ok (t.arrived n) ∧ e' = e.moved s n o := by
  cases hp with
  | exhausted => exact Or.inl ⟨rfl, _, rfl⟩
  | stage _ hstart =>
      rcases Turn.start_advance_cases hget with ⟨err, hfail⟩ | ⟨o, target, n, ho, ht, hn, hmoved⟩
      · cases hstart.symm.trans hfail
        exact Or.inl ⟨rfl, err, rfl⟩
      · cases hstart.symm.trans hmoved
        exact Or.inr ⟨o, target, n, ho, ht, hn, rfl, rfl⟩

/-- A stage of a turn on track takes every session along its flow. -/
theorem Plays.goesAlong (hp : Plays e p purpose lock left σ t result e') (h : t.OnTrack e σ)
    (ha : e.hasActive t.sessionId = true) : e.GoesAlong e' := by
  obtain ⟨s, hget, hpursues⟩ := h.pursues
  have hs := Engine.isActive_of_hasActive ha hget
  have hpinned : ∀ f, e.registry.version? s.flowId s.flowVersion = some f → f = t.flow :=
    fun f hf => Option.some.inj (hf.symm.trans hpursues.pinned)
  cases σ with
  | advance =>
      obtain ⟨o, ho, hallows, -⟩ := h.allowed (Or.inl rfl)
      rcases hp.advance_cases hget with ⟨rfl, -⟩ | ⟨o', target, n, ho', ht, hn, -, rfl⟩
      · exact Engine.goesAlong_of_store rfl
      · cases ho.symm.trans ho'
        refine Engine.goesAlong_of_keep hget (e.store_moved s n o) rfl fun f hf => ?_
        rw [hpinned f hf]
        exact hpursues.goesAlong_moved hs hallows ht hn e.now
  | complete =>
      obtain ⟨o, ho, hallows, hfinal⟩ := h.allowed (Or.inr rfl)
      cases hp with
      | exhausted => exact Engine.goesAlong_of_store rfl
      | stage _ hstart =>
          cases hstart.symm.trans (Turn.start_complete hget ho hs)
          refine Engine.goesAlong_of_keep hget (Engine.store_finished e _) rfl fun f hf => ?_
          rw [hpinned f hf]
          exact hpursues.goesAlong_finished (hallows.final (hfinal rfl)) _ rfl rfl rfl
  | _ => exact hp.touches.1.goesAlong nofun nofun

/-- After a stage a turn on track is on track for the next one. -/
theorem Plays.onTrack (hp : Plays e p purpose lock left σ t (.ok t') e') (h : t.OnTrack e σ)
    (hr : e.replaced = []) (hn : t'.next? σ = some σ') : t'.OnTrack e' σ' := by
  have hcontinues := hp.continues
  have htouches := hp.touches.1
  cases σ with
  | recordInput =>
      cases hn
      refine ⟨h.pursues_of_touches htouches nofun hcontinues.sessionId hcontinues.flow
        (hcontinues.node nofun), ?_⟩
      rintro (hσ | hσ) <;> cases hσ
  | dispatch =>
      have hheard : ∃ o, t' = t.heard o ∧ t.node.Allows o := by
        cases hp with
        | stage hσ _ => exact absurd rfl hσ
        | hears hask hhear =>
            have htouched : e.Touches Stage.dispatch.May t.sessionId _ := Turn.touches_of_ask hask
            exact Turn.heard_of_hear (htouched.service.replaced.trans hr) hhear
        | answered hhear => exact Turn.heard_of_hear hr hhear
      obtain ⟨o, rfl, hallows⟩ := hheard
      refine ⟨h.pursues_of_touches htouches nofun rfl rfl rfl, fun _ => ⟨o, rfl, hallows, ?_⟩⟩
      rintro rfl
      exact Turn.isFinal_of_afterDispatch rfl (Option.some.inj hn)
  | advance =>
      obtain ⟨s, hget, hpursues⟩ := h.pursues
      rcases hp.advance_cases hget with ⟨-, err, herr⟩ | ⟨o, target, n, -, -, hfound, hok, rfl⟩
      · cases herr
      · cases hok
        have hid : n.id = target := KeyedList.key_of_find? hfound
        have hσ' : (t.arrived n).afterAdvance = σ' := Option.some.inj hn
        refine ⟨⟨_, Engine.get?_moved (KeyedList.key_of_find? hget) o,
          hpursues.pinned, rfl, hid ▸ hfound⟩, ?_⟩
        unfold Turn.afterAdvance at hσ'
        rintro (rfl | rfl) <;> split at hσ' <;> cases hσ'
  | _ => cases hn

/-! ## Operations on track -/

/-- What an operation in progress knows of its session and its flow is so. -/
def OnTrack (e : Engine) : Phase → Prop
  | opening _ f _ => e.registry.version? f.id f.version = some f
  | settling _ _ s t _ => t.Pursues e.registry s ∧ t.node.id = t.flow.startNode
  | playing _ _ _ σ t => t.OnTrack e σ
  | acting _ _ _ _ t => t.OnTrack e .dispatch
  | ready _ | entering .. | finished _ => True

theorem OnTrack.mono (h : p.OnTrack e) (ha : p.Attends e)
    (hr : e.registry.Retains e'.registry)
    (hstore : ∀ id ∈ p.inside, ∀ s, e.store.get? id = some s → s.isActive = true →
      e'.store.get? id = some s) : p.OnTrack e' := by
  have hturn : ∀ {σ : Stage} {t : Turn}, t.OnTrack e σ → e.hasActive t.sessionId = true →
      t.sessionId ∈ p.inside → t.OnTrack e' σ := by
    rintro σ t ⟨⟨s, hget, hpursues⟩, hallowed⟩ hactive hin
    have hs := Engine.isActive_of_hasActive hactive hget
    exact ⟨⟨s, hstore _ hin s hget hs, hpursues.retained hr⟩, hallowed⟩
  cases p with
  | opening c f lock => exact hr _ _ _ h
  | settling c callerLock s t lock => exact ⟨h.1.retained hr, h.2⟩
  | playing purpose lock left σ t => exact hturn h ha (by simp [inside])
  | acting purpose lock left pending t => exact hturn h ha (by simp [inside])
  | _ => trivial

theorem Plays.turn (hp : Plays e p purpose lock left σ t result e') (h : p.OnTrack e) :
    t.OnTrack e σ := by
  cases hp <;> exact h

/-- An operation on track takes every session along its flow. -/
theorem Goes.goesAlong (hg : Goes v e p p' e') (h : p.OnTrack e) (ha : p.Attends e) :
    e.GoesAlong e' := by
  cases hg with
  | unserved _ => exact Engine.goesAlong_of_store rfl
  | calls _ => exact Engine.goesAlong_of_store rfl
  | asks _ => exact Engine.goesAlong_of_store rfl
  | strays => exact Engine.goesAlong_of_store rfl
  | opens hopen =>
      obtain ⟨-, rfl, -⟩ := openSession_opened hopen
      exact Engine.goesAlong_of_store rfl
  | resumes hopen _ hc =>
      rcases openSession_cases hopen with rfl | rfl
      · exact Engine.goesAlong_of_store hc.alike.store
      · exact Engine.goesAlong_of_store hc.alike.store
  | @stores c callerLock s t lock _ hstore =>
      rcases storeSession_cases hstore with ⟨-, rfl, hnew⟩ | ⟨-, err, herr⟩
      · refine Engine.goesAlong_of_sub fun id s' hget => ?_
        rw [Engine.get?_opened] at hget
        split at hget
        · rename_i hid
          exact Or.inr (hid ▸ hnew)
        · exact Or.inl hget
      · cases herr
  | drops hstore hc =>
      rcases storeSession_cases hstore with ⟨hok, -⟩ | ⟨rfl, -⟩
      · cases hok
      · exact Engine.goesAlong_of_store hc.alike.store
  | admits hadmission =>
      obtain ⟨rfl, -⟩ := admission_admitted hadmission
      exact Engine.goesAlong_of_store rfl
  | refuses hadmission hrefusal hc =>
      rcases admission_cases hadmission with ⟨t, rfl, -⟩ | ⟨rfl, -⟩ | ⟨s, -, hget, -, -, rfl⟩
      · cases hrefusal
      · exact Engine.goesAlong_of_store hc.alike.store
      · exact Engine.goesAlong_of_ended hget hc.alike.store rfl rfl rfl rfl nofun
  | ends hend hc =>
      rcases endSession_cases hend with ⟨rfl, -⟩ | ⟨s, hget, -, -, rfl⟩
      · exact Engine.goesAlong_of_store hc.alike.store
      · exact Engine.goesAlong_of_ended hget hc.alike.store rfl rfl rfl rfl nofun
  | lapses hlapse hc =>
      rcases lapseIfDue_cases hlapse with ⟨rfl, -⟩ | ⟨s, hget, -, -, -, rfl⟩
      · exact Engine.goesAlong_of_store hc.alike.store
      · exact Engine.goesAlong_of_ended hget hc.alike.store rfl rfl rfl rfl nofun
  | @waits purpose lock left t pending _ hask =>
      have htouches : e.Touches Stage.dispatch.May t.sessionId e' := Turn.touches_of_ask hask
      exact htouches.goesAlong nofun nofun
  | continues hplays _ => exact hplays.goesAlong (hplays.turn h) (hplays.attends ha)
  | concludes hplays _ hc _ =>
      exact (hplays.goesAlong (hplays.turn h) (hplays.attends ha)).store_right hc.alike.store

/-- An operation that goes on stays on track. -/
theorem Goes.onTrack (hg : Goes v e p p' e') (h : p.OnTrack e) (ha : p.Attends e)
    (hr : e.replaced = []) : p'.OnTrack e' := by
  cases hg with
  | calls hget =>
      obtain ⟨hmem, -⟩ := Registry.mem_of_get? hget
      exact Registry.version?_of_mem hmem
  | @opens c f lock s t e₁ hopen =>
      obtain ⟨-, rfl, expiry, n, rfl, hn, rfl⟩ := openSession_opened hopen
      have hid : n.id = f.startNode := KeyedList.key_of_find? hn
      exact ⟨⟨h, congrArg some hid.symm, (congrArg f.node? hid).trans hn⟩, hid⟩
  | @stores c callerLock s t lock _ hstore =>
      rcases storeSession_cases hstore with ⟨-, rfl, -⟩ | ⟨-, err, herr⟩
      · have hget : (e.opened s).store.get? t.sessionId = some s := by
          rw [Engine.get?_opened, if_pos ha.1.symm]
        exact Turn.onTrack_entry hget h.1
      · cases herr
  | admits hadmission =>
      obtain ⟨rfl, s, f, n, hget, -, hf, hn, rfl⟩ := admission_admitted hadmission
      obtain ⟨node, hnode, hn⟩ := Option.bind_eq_some_iff.1 hn
      have hid : n.id = node := KeyedList.key_of_find? hn
      exact Turn.onTrack_entry hget ⟨hf, hid ▸ hnode, hid ▸ hn⟩
  | @waits purpose lock left t pending _ hask =>
      have htouches : e.Touches Stage.dispatch.May t.sessionId e' := Turn.touches_of_ask hask
      have hturn : t.OnTrack e .dispatch := h
      refine ⟨hturn.pursues_of_touches htouches nofun rfl rfl rfl, ?_⟩
      rintro (hσ | hσ) <;> cases hσ
  | continues hplays hn => exact hplays.onTrack (hplays.turn h) hr hn
  | _ => trivial

/-- A session that was made for an operation is on track when it is stored. -/
theorem OnTrack.made (h : p.OnTrack e) (ha : p.Attends e) (hmade : p.made? = some s) :
    ∃ f, e.registry.version? s.flowId s.flowVersion = some f ∧ s.OnTrack f := by
  obtain ⟨c, callerLock, t, lock, rfl⟩ := eq_of_made? hmade
  obtain ⟨hpursues, hstart⟩ := h
  refine ⟨t.flow, hpursues.pinned, t.node, hpursues.rests, hpursues.found, ?_, fun hc => ?_⟩
  · rw [hstart]
    exact Flow.mem_reachable_self (hstart ▸ hpursues.found)
  · have hs : s.isActive = true := ha.2
    rw [Session.isActive, hc] at hs
    cases hs

end Phase

/-! ## Services -/

/-- The registry when flows were published in it one after another, valid or not. -/
def Registry.holding (flows : List Flow) : Registry :=
  flows.foldl (fun r f => (r.publish f).2) .empty

theorem Registry.Rising.publishAll {r : Registry} (h : r.Rising) (flows : List Flow) :
    (flows.foldl (fun r f => (r.publish f).2) r).Rising := by
  induction flows generalizing r with
  | nil => exact h
  | cons f rest ih => exact ih (h.publish f)

theorem Registry.rising_holding (flows : List Flow) : (Registry.holding flows).Rising :=
  Rising.publishAll (r := .empty) (fun _ hf => absurd hf List.not_mem_nil) flows

namespace Service

variable {w : Service}

/-- A service that has seen nothing, with flows to serve. -/
def serving (flows : List Flow) (settings : Settings) (sink : Option Sink)
    (executor : Option Executor) (now : Instant) : Service :=
  ⟨{ Engine.fresh settings sink executor now with registry := .holding flows }, [], []⟩

/-- Whether or not a flow is stored, the registry goes on rising and keeps what it has. -/
theorem rising_publish (h : e.registry.Rising) (f : Flow) :
    ((Operation.publish f).perform.start e).2.registry.Rising ∧
      e.registry.Retains ((Operation.publish f).perform.start e).2.registry := by
  obtain ⟨e₁, hcalm, hstart⟩ := publish_cases f e
  have hsame := hcalm.alike.service
  have hrising := h.of_same hsame.versions hsame.current
  have hretains := Registry.retains_of_versions hsame.versions
  rcases hstart with hstart | hstart
  · rw [hstart]
    exact ⟨hrising, hretains⟩
  · rw [hstart]
    exact ⟨hrising.publish f, hretains.trans (hrising.retains_publish f)⟩

/-- Every stored session is on track, and so is every operation in progress. -/
structure Tracked (w : Service) : Prop where
  orderly : w.Orderly
  rising : w.engine.registry.Rising
  sessions : ∀ id s, w.engine.store.get? id = some s →
    ∃ f, w.engine.registry.version? s.flowId s.flowVersion = some f ∧ s.OnTrack f
  tasks : ∀ (i : Nat) (t : Task), w.tasks[i]? = some t → t.phase.OnTrack w.engine

theorem tracked_serving (flows : List Flow) (settings : Settings) (sink : Option Sink)
    (executor : Option Executor) (now : Instant) :
    (serving flows settings sink executor now).Tracked where
  orderly := ⟨inLine_of_idle Locks.idle_empty [], rfl, fun _ _ ht => absurd ht nofun⟩
  rising := Registry.rising_holding flows
  sessions := fun _ _ hget => absurd hget nofun
  tasks := fun _ _ ht => absurd ht nofun

namespace Tracked

/-- What an operation in progress does leaves the sessions on track. -/
theorem sessions_goes (h : w.Tracked) {i : Nat} {t : Task} {p : Phase}
    (ht : w.tasks[i]? = some t) (hg : t.phase.Goes t.visitor w.engine p e')
    (hget : e'.store.get? id = some s) :
    ∃ f, e'.registry.version? s.flowId s.flowVersion = some f ∧ s.OnTrack f := by
  have hdoes := h.orderly.does ht hg
  have hattends := h.orderly.attends i t ht
  have hretains := Registry.retains_of_versions hdoes.sameFlows.1
  cases hbefore : w.engine.store.get? id with
  | some s₁ =>
      obtain ⟨f, hf, hs⟩ := h.sessions id s₁ hbefore
      have hgoes := hg.goesAlong (h.tasks i t ht) hattends id s₁ s f hbefore hget hf
      refine ⟨f, ?_, hgoes.onTrack hs⟩
      rw [hgoes.flowId, hgoes.flowVersion]
      exact hretains _ _ _ hf
  | none =>
      -- nobody stores a session but the operation that it was made for
      by_cases hid : t.phase.subject? = some id
      · obtain ⟨f, hf, hs⟩ := (h.tasks i t ht).made hattends
          ((hid ▸ hdoes : w.engine.Does _ (some id) e').of_missing hbefore hget)
        exact ⟨f, hretains _ _ _ hf, hs⟩
      · cases hbefore.symm.trans ((hdoes.others hid).symm.trans hget)

theorem proceed (h : w.Tracked) (i : Nat) :
    (w.proceed i).Tracked ∧ w.engine.GoesAlong (w.proceed i).engine := by
  have horderly := h.orderly.proceed i
  rcases proceed_cases w i with ⟨hsame, -⟩ | ⟨t, p, e', ht, hcan, -, hg, hgoes, -⟩
  · rw [hsame]
    exact ⟨h, Engine.goesAlong_of_store rfl⟩
  · rw [hgoes] at horderly ⊢
    obtain ⟨hversions, hcurrent⟩ := (h.orderly.does ht hg).sameFlows
    refine ⟨⟨horderly, h.rising.of_same hversions hcurrent, fun id s => h.sessions_goes ht hg,
      fun j u hu => ?_⟩, hg.goesAlong (h.tasks i t ht) (h.orderly.attends i t ht)⟩
    rcases set_cases hu with ⟨-, rfl⟩ | ⟨hji, hu⟩
    · exact hg.onTrack (h.tasks i t ht) (h.orderly.attends i t ht) h.orderly.plain
    · -- the others have their sessions to themselves
      refine (h.tasks j u hu).mono (h.orderly.attends j u hu)
        (Registry.retains_of_versions hversions) fun id hin s hget _ => ?_
      rw [h.orderly.get?_inside ht hcan hg hu hji hin, hget]

/-- What keeps the stored flows and the active sessions, and changes no session, leaves
everything on track. -/
theorem of_engine (h : w.Tracked) {published : List Flow}
    (horderly : (⟨e, w.tasks, published⟩ : Service).Orderly) (hrising : e.registry.Rising)
    (hretains : w.engine.registry.Retains e.registry)
    (hsub : ∀ id s, e.store.get? id = some s → w.engine.store.get? id = some s)
    (hactive : ∀ id s, w.engine.store.get? id = some s → s.isActive = true →
      e.store.get? id = some s) :
    (⟨e, w.tasks, published⟩ : Service).Tracked where
  orderly := horderly
  rising := hrising
  sessions := fun id s hget => by
    obtain ⟨f, hf, hs⟩ := h.sessions id s (hsub id s hget)
    exact ⟨f, hretains _ _ _ hf, hs⟩
  tasks := fun i t ht => (h.tasks i t ht).mono (h.orderly.attends i t ht) hretains
    fun id _ s hget hs => hactive id s hget hs

/-- **Moves.**  Whatever happens next, everything stays on track, and every session that
stays stored goes along its flow. -/
theorem make (h : w.Tracked) (m : Move) :
    (w.make m).Tracked ∧ w.engine.GoesAlong (w.make m).engine := by
  have horderly := h.orderly.make m
  cases m with
  | turnClock now =>
      exact ⟨h.of_engine horderly h.rising (Registry.retains_of_versions rfl)
        (fun _ _ hget => hget) (fun _ _ hget _ => hget), Engine.goesAlong_of_store rfl⟩
  | publish f =>
      have hstore := store_publish f w.engine
      obtain ⟨hrising, hretains⟩ := rising_publish h.rising f
      exact ⟨h.of_engine horderly hrising hretains (fun id s hget => hstore ▸ hget)
        (fun id s hget _ => hstore ▸ hget), Engine.goesAlong_of_store hstore⟩
  | drop retention now =>
      have hsub : ∀ id s, (w.engine.store.dropStale retention now).get? id = some s →
          w.engine.store.get? id = some s := by
        intro id s hget
        rw [SessionStore.get?_dropStale, Option.filter_eq_some_iff] at hget
        exact hget.1
      exact ⟨h.of_engine horderly h.rising (Registry.retains_of_versions rfl) hsub
        (fun _ _ hget hs => SessionStore.get?_dropStale_of_active hget hs),
        Engine.goesAlong_of_sub fun id s hget => Or.inl (hsub id s hget)⟩
  | begin call =>
      refine ⟨⟨horderly, h.rising, h.sessions, fun i t ht => ?_⟩, Engine.goesAlong_of_store rfl⟩
      rcases begin_cases ht with ht | ⟨-, rfl⟩
      · exact h.tasks i t ht
      · trivial
  | proceed i => exact h.proceed i

theorem after (h : w.Tracked) (ms : List Move) : (w.after ms).Tracked := by
  induction ms generalizing w with
  | nil => exact h
  | cons m ms ih => exact ih (h.make m).1

end Tracked

/-- **Sessions keep to the edges.**  When a node's own handler interprets an input there
(none is replaced), whatever the session, the input and the executor, what comes out leads
to a target of the node, which the flow lists as a successor of the node or as dangling; it
ends the session only at an end node or if an edge of the node leads to none; and with an
error nothing is captured.
So in every run of a service, with whatever flows, each session rests at a node that can
be reached from the start of the flow it is pinned to, was completed, if it was, where a
session may end, and next stays at its node or goes to a successor of it. -/
theorem moves_along_edges (flows : List Flow) (settings : Settings) (sink : Option Sink)
    (executor : Option Executor) (now : Instant) :
    (∀ (e e' : Engine) (t t' : Turn) (pending : Option Turn.Pending), e.replaced = [] →
      t.dispatch.start e = (.ok t', e') ∨ (t.hear pending).start e = (.ok t', e') →
      ∃ o, t'.outcome = some o ∧
        (∀ target, o.target? = some target → target ∈ t.node.targets ∧
          ∀ f : Flow, f.node? t.node.id = some t.node →
            target ∈ f.successors t.node.id ∨ (t.node.id, target) ∈ f.dangling) ∧
        (o.isFinal = true → t.node.kind = .terminal ∨ none ∈ t.node.edges) ∧
        (o.isError = true → o.captured = .empty)) ∧
    ∀ (ms : List Move) (id : String) (s : Session),
      ((serving flows settings sink executor now).after ms).engine.store.get? id = some s →
      ∃ (f : Flow) (n : Node),
        ((serving flows settings sink executor now).after ms).engine.registry.version?
          s.flowId s.flowVersion = some f ∧
        s.currentNode = some n.id ∧ f.node? n.id = some n ∧ n.id ∈ f.reachable f.startNode ∧
        (s.status = .completed → n.kind = .terminal ∨ none ∈ n.edges) ∧
        ∀ (m : Move) (s' : Session),
          ((serving flows settings sink executor now).after (ms ++ [m])).engine.store.get? id =
            some s' →
          s'.flowId = s.flowId ∧ s'.flowVersion = s.flowVersion ∧
            (s'.currentNode = some n.id ∨
              ∃ b, s'.currentNode = some b ∧ b ∈ f.successors n.id) := by
  refine ⟨fun e e' t t' pending hr h => ?_, fun ms id s hget => ?_⟩
  · have hheard : ∃ o, t' = t.heard o ∧ t.node.Allows o :=
      h.elim (Turn.heard_of_dispatch hr) (Turn.heard_of_hear hr)
    obtain ⟨o, rfl, hallows⟩ := hheard
    refine ⟨o, rfl, fun target ht => ?_, hallows.final, hallows.error⟩
    have hmem := hallows.target target ht
    exact ⟨hmem, fun f hn => Flow.mem_successors_or_mem_dangling hn hmem⟩
  · have htracked := (tracked_serving flows settings sink executor now).after ms
    obtain ⟨f, hf, n, hnode, hn, hreach, hend⟩ := htracked.sessions id s hget
    refine ⟨f, n, hf, hnode, hn, hreach, hend, fun m s' hget' => ?_⟩
    rw [after_append] at hget'
    have hgoes := (htracked.make m).2 id s s' f hget hget' hf
    refine ⟨hgoes.flowId, hgoes.flowVersion, ?_⟩
    rcases hgoes.node with hsame | ⟨-, a, b, ha, hb, hedge⟩
    · exact Or.inl (hsame.trans hnode)
    · cases hnode.symm.trans ha
      exact Or.inr ⟨b, hb, hedge⟩

/-- The node where the greeting starts. -/
def nameKnown : Node :=
  ⟨"known", "", .conditional ⟨"name", .startsWith, "A"⟩ ⟨none, none⟩ (some "ask")⟩

/-- The greeting is called, up to the moment when the session is to leave its first
node. -/
def leavingStart : List Move :=
  [.begin (.create ⟨"greeting", "555", "*1#"⟩), .proceed 0, .proceed 0, .proceed 0, .proceed 0]

/-- Of a name that is not known the conditional makes a move to the question, and the
session goes there along an edge. -/
theorem moves_along_edges_greeting :
    (∃ (e e' : Engine) (t t' : Turn) (o : Outcome), e.replaced = [] ∧
      t.dispatch.start e = (.ok t', e') ∧ t'.outcome = some o ∧ o.target? = some "ask" ∧
      "ask" ∈ t.node.targets) ∧
    ∃ (f : Flow) (s s' : Session),
      ((serving [.greeting] .standard none none ⟨0, Instant.zero_inRange⟩).after
        leavingStart).engine.store.get? (sessionId 1) = some s ∧
      ((serving [.greeting] .standard none none ⟨0, Instant.zero_inRange⟩).after
        (leavingStart ++ [.proceed 0])).engine.store.get? (sessionId 1) = some s' ∧
      s.currentNode = some "known" ∧ s'.currentNode = some "ask" ∧
      "known" ∈ f.reachable f.startNode ∧ "ask" ∈ f.successors "known" := by
  have hbefore : (((serving [.greeting] .standard none none ⟨0, Instant.zero_inRange⟩).after
      leavingStart).engine.store.get? (sessionId 1)).any (fun s =>
        decide (s.currentNode = some "known")) = true := by decide +kernel
  have hafter : (((serving [.greeting] .standard none none ⟨0, Instant.zero_inRange⟩).after
      (leavingStart ++ [.proceed 0])).engine.store.get? (sessionId 1)).any (fun s =>
        decide (s.currentNode = some "ask")) = true := by decide +kernel
  have hheard : (((Turn.start (sessionId 1) .greeting nameKnown none).dispatch.start
      ((serving [.greeting] .standard none none ⟨0, Instant.zero_inRange⟩).after
        leavingStart).engine).1.toOption.any fun t =>
          t.outcome.any fun o => decide (o.target? = some "ask")) = true := by decide +kernel
  obtain ⟨hturns, hruns⟩ :=
    moves_along_edges [.greeting] .standard none none ⟨0, Instant.zero_inRange⟩
  refine ⟨?_, ?_⟩
  · cases hstart : (Turn.start (sessionId 1) .greeting nameKnown none).dispatch.start
        ((serving [.greeting] .standard none none ⟨0, Instant.zero_inRange⟩).after
          leavingStart).engine with
    | mk result e' =>
        rw [hstart] at hheard
        obtain ⟨t', rfl, ho⟩ := any_toOption_iff.1 hheard
        obtain ⟨o, ho, htarget⟩ := (Option.any_eq_true _ _).1 ho
        rw [decide_eq_true_eq] at htarget
        obtain ⟨o', ho', hmem, -⟩ := hturns _ _ _ _ none rfl (Or.inl hstart)
        cases ho.symm.trans ho'
        exact ⟨_, _, _, t', o, rfl, hstart, ho, htarget, (hmem "ask" htarget).1⟩
  · obtain ⟨s, hget, hs⟩ := (Option.any_eq_true _ _).1 hbefore
    obtain ⟨s', hget', hs'⟩ := (Option.any_eq_true _ _).1 hafter
    rw [decide_eq_true_eq] at hs hs'
    obtain ⟨f, n, -, hnode, -, hreach, -, hnext⟩ := hruns leavingStart (sessionId 1) s hget
    have hid : n.id = "known" := Option.some.inj (hnode.symm.trans hs)
    rw [hid] at hreach hnext
    obtain ⟨-, -, hsame | ⟨b, hb, hedge⟩⟩ := hnext (.proceed 0) s' hget'
    · exact absurd (Option.some.inj (hsame.symm.trans hs')) (by decide)
    · cases hb.symm.trans hs'
      exact ⟨f, s, s', hget, hget', hs, hs', hreach, hedge⟩

end Service

end UssdFlows
