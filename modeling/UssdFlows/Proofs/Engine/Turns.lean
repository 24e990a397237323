import UssdFlows.Proofs.Engine.Sound

/-!
# Turns in sound engines

A turn *fits* (`Turn.Fits`) if it walks through the flow its session is pinned
to and what it is about to do follows from what it has done.  In a sound engine
a turn that fits stays so from stage to stage (`leaves_perform`), for whatever
the executor answers; meanwhile its `cost` falls, so that it ends before its
stages run out.

A turn *carries* its session while the session may rest at a conditional.
Once the turn is over, whether it succeeded or not, the session rests elsewhere
or is not active any more (`settles_play`).
-/

namespace UssdFlows

open EngineM

/-- The failures that a sound engine has no part in: something that a session
relies on is missing, or a turn goes on for too long. -/
def EngineError.IsFault : EngineError → Prop
  | .flowNotFound .. | .nodeNotFound .. | .noTarget | .tooManySteps => True
  | _ => False

namespace Turn

variable {L : Ledger} {others : String → Prop} {e : Engine} {t : Turn} {σ : Stage}

/-! ## Turns that fit -/

/-- A turn that stands before a stage goes with the ledger. -/
structure Fits (L : Ledger) (next : Nat) (t : Turn) (σ : Stage) : Prop where
  issued : IsIssued next t.sessionId
  flow : t.flow = L.pin t.sessionId
  wellFormed : t.flow.WellFormed
  node : t.flow.node? t.node.id = some t.node
  beyond : L.Beyond t.sessionId t.node.id
  leads : σ = .advance →
    ∃ o target, t.outcome = some o ∧ o.target? = some target ∧ target ∈ t.node.targets
  ends : σ = .complete → ∃ o, t.outcome = some o

/-- Before this stage a session may rest at a conditional, since the turn is
about to take it on. -/
def Carries (t : Turn) (σ : Stage) : Prop :=
  t.node.isTransient = true ∧ (σ = .dispatch ∨ σ = .advance ∨ σ = .complete)

/-- The sessions on the move while a turn stands before a stage. -/
def Moving (others : String → Prop) (t : Turn) (σ : Stage) (id : String) : Prop :=
  others id ∨ id = t.sessionId ∧ t.Carries σ

/-- What is left to do for a turn before a stage, at most. -/
noncomputable def cost (t : Turn) : Stage → Nat
  | .recordInput => 2 * t.flow.rank t.node.id + 3
  | .dispatch => 2 * t.flow.rank t.node.id + 2
  | .advance => 2 * t.flow.rank t.node.id + 1
  | _ => 1

theorem cost_pos (t : Turn) (σ : Stage) : 0 < t.cost σ := by
  cases σ <;> simp [cost]

theorem cost_le (t : Turn) (σ : Stage) : t.cost σ ≤ 2 * t.flow.rank t.node.id + 3 := by
  cases σ <;> simp only [cost] <;> omega

/-- A turn that fits costs no more than twice the number of nodes and one. -/
theorem Fits.cost_le_size {next : Nat} (h : t.Fits L next σ) :
    t.cost σ ≤ 2 * t.flow.size + 1 := by
  have hfound : t.flow.nodes.find? t.node.id = some t.node := h.node
  have hnode : t.flow.hasNode t.node.id = true := by
    rw [Flow.hasNode, KeyedList.contains, hfound]
    rfl
  have hrank := Flow.rank_lt_size h.wellFormed.acyclic hnode
  have hcost := t.cost_le σ
  omega

/-- The stages that a turn may have suffice for every turn that fits. -/
theorem Fits.cost_le_stageLimit {next : Nat} (h : t.Fits L next σ) :
    t.cost σ ≤ stageLimit t.flow := by
  have hcost := h.cost_le_size
  rw [stageLimit]
  omega

theorem Fits.mono {L' : Ledger} {m n : Nat} (h : t.Fits L m σ) (hmn : m ≤ n)
    (hL : L.Agrees m L') : t.Fits L' n σ where
  issued := h.issued.mono hmn
  flow := h.flow.trans (hL _ h.issued).1.symm
  wellFormed := h.wellFormed
  node := h.node
  beyond := hL.beyond h.issued h.beyond
  leads := h.leads
  ends := h.ends

theorem moving_of_not_carries (h : ¬ t.Carries σ) {id : String} (hm : t.Moving others σ id) :
    others id := hm.elim (fun ho => ho) fun hc => absurd hc.2 h

/-- A target of the node of a turn that fits is a node, and nearer to the end. -/
theorem Fits.target {next : Nat} (h : t.Fits L next σ) {target : String}
    (ht : target ∈ t.node.targets) :
    ∃ n, t.flow.node? target = some n ∧ n.id = target ∧
      t.flow.Edge t.node.id target ∧ t.flow.rank target < t.flow.rank t.node.id := by
  have hmem : t.node ∈ t.flow.nodes.items := KeyedList.mem_of_find? h.node
  have hhas := h.wellFormed.targets_exist t.node hmem target ht
  have hedge := Flow.edge_of_node? h.node ht hhas
  rw [Flow.hasNode, KeyedList.contains, Option.isSome_iff_exists] at hhas
  obtain ⟨n, hn⟩ := hhas
  exact ⟨n, hn, KeyedList.key_of_find? hn, hedge, Flow.rank_lt_of_edge h.wellFormed.acyclic hedge⟩

/-! ## What a stage leaves -/

/-- A turn fits what comes next, with less to do than a bound says; or, if
nothing comes next, the engine is sound without it. -/
def Ready (L : Ledger) (others : String → Prop) (bound : Nat) (t : Turn) (e : Engine) :
    Option Stage → Prop
  | some σ => e.Sound L (t.Moving others σ) ∧ t.Fits L e.nextSession σ ∧ t.cost σ < bound
  | none => e.Sound L others

/-- What a stage of a turn leaves: a turn that is ready for what comes next, or
an engine that is sound without it. -/
def Leaves (L : Ledger) (others : String → Prop) (t : Turn) (σ : Stage) :
    Except EngineError Turn → Engine → Prop
  | .ok t', e' => t'.sessionId = t.sessionId ∧ t'.Ready L others (t.cost σ) e' (t'.next? σ)
  | .error err, e' => e'.Sound L others ∧ ¬ err.IsFault

/-- A turn has done with its session when the session is gone, over, or not at
a conditional. -/
theorem sound_others (h : e.Sound L (t.Moving others σ))
    (hrest : ∀ s, e.store.get? t.sessionId = some s → s.isActive = true → ¬ t.Carries σ) :
    e.Sound L others := by
  refine h.narrow fun id s n hget ha _ _ _ hm => hm.elim (fun ho => ho) ?_
  rintro ⟨hid, hc⟩
  have hkey : s.id = id := KeyedList.key_of_find? hget
  refine absurd hc (hrest s ?_ ha)
  rw [← hid, hkey]
  exact hget

/-- Whatever is done with a session that is missing fails, and nothing changes. -/
theorem leaves_missing (h : e.Sound L (t.Moving others σ))
    (hget : e.store.get? t.sessionId = none) :
    t.Leaves L others σ (.error (.store (.notStored t.sessionId))) e := by
  refine ⟨sound_others h fun s hs => ?_, fun hf => hf⟩
  rw [hget] at hs
  cases hs

/-- A stage that leaves the session alone and ends the turn. -/
theorem not_carries_of_ne (h1 : σ ≠ .dispatch) (h2 : σ ≠ .advance) (h3 : σ ≠ .complete) :
    ¬ t.Carries σ := by
  rintro ⟨-, h | h | h⟩
  · exact h1 h
  · exact h2 h
  · exact h3 h

theorem leaves_recordInput (h : e.Sound L (t.Moving others .recordInput))
    (hf : t.Fits L e.nextSession .recordInput) :
    e.SameService (t.recordInput.start e).2 ∧
      t.Leaves L others .recordInput (t.recordInput.start e).1 (t.recordInput.start e).2 := by
  have hno : ¬ t.Carries .recordInput := not_carries_of_ne (by decide) (by decide) (by decide)
  have hothers : e.Sound L others := h.mono fun id => moving_of_not_carries hno
  cases hget : e.store.get? t.sessionId with
  | none =>
      rw [start_recordInput_of_missing hget]
      exact ⟨.refl e, leaves_missing h hget⟩
  | some s =>
      have hp := hothers.placed _ s hget
      rw [start_recordInput hget]
      cases hr : s.received? (t.input.getD "") e.now e.settings.sessionTimeout with
      | none =>
          refine ⟨e.sameService_keep _, hothers.keep ?_ fun id _ hm => hm, fun hf => hf⟩
          exact hp.congr rfl rfl rfl rfl fun ha => ⟨ha, fun hm => hm⟩
      | some s' =>
          obtain ⟨expiry, -, rfl⟩ := Session.received?_eq_some hr
          have hsound : (e.received ((s.record (t.input.getD "") e.now).expiringAt expiry)
              (t.input.getD "")).Sound L others := by
            refine (hothers.keep ?_ fun id _ hm => hm).of_same
              ((Engine.sameService_keep ..).symm.trans (Engine.sameService_received ..)) rfl
            exact hp.congr rfl rfl rfl rfl fun ha => ⟨ha, fun hm => hm⟩
          refine ⟨Engine.sameService_received .., rfl, ?_⟩
          refine ⟨hsound.mono fun id hm => Or.inl hm, ?_, Nat.lt_succ_self _⟩
          exact ⟨hf.issued, hf.flow, hf.wellFormed, hf.node, hf.beyond, nofun, nofun⟩

/-- Asking for an action leaves the sessions alone. -/
theorem start_ask_cases (hr : e.replaced = []) (t : Turn) :
    (e.store.get? t.sessionId = none ∧
        t.ask.start e = (.error (.store (.notStored t.sessionId)), e)) ∨
      ∃ pending e', t.ask.start e = (.ok pending, e') ∧ e.SameService e' ∧ e'.store = e.store ∧
        (pending ≠ none → t.node.isAction = true) := by
  cases hget : e.store.get? t.sessionId with
  | none => exact Or.inl ⟨rfl, start_ask_of_missing hget⟩
  | some s =>
      cases ha : t.node.isAction with
      | false =>
          exact Or.inr ⟨none, e, start_ask_of_not_isAction hget hr ha, .refl e, rfl,
            fun hne => absurd rfl hne⟩
      | true =>
          exact Or.inr ⟨_, _, start_ask_of_isAction hget hr ha, e.sameService_requested s t.node,
            e.store_requested s t.node, fun _ => rfl⟩

theorem sameService_if_counted (e : Engine) (n : Node) (asked : Bool) (r : ActionResult) :
    e.SameService (if n.isAction then e.counted n asked r else e) ∧
      (if n.isAction then e.counted n asked r else e).store = e.store := by
  cases n.isAction with
  | false => exact ⟨.refl e, rfl⟩
  | true => exact ⟨e.sameService_counted n asked r, e.store_counted n asked r⟩

/-- Wherever an interpretation leads, the turn fits what comes next. -/
theorem leaves_heard {bindings : Dict String} {r : ActionResult} {o : Outcome}
    (h : e.Sound L (t.Moving others .dispatch)) (hf : t.Fits L e.nextSession .dispatch)
    (ho : t.node.interpret bindings t.givenInput r = .ok o) :
    t.Leaves L others .dispatch (.ok (t.heard o)) e := by
  -- conditionals lead on, so that only other nodes let their sessions stay
  have hstay : ∀ message, o.move = .stay message → ¬ t.Carries .dispatch := by
    rintro message hmove ⟨ht, -⟩
    obtain ⟨target, metadata, heq⟩ := Node.interpret_of_isTransient ht bindings t.givenInput r
    rw [heq] at ho
    cases ho
    cases target <;> cases hmove
  have hnext : (t.heard o).next? .dispatch = some (t.heard o).afterDispatch := rfl
  refine ⟨rfl, ?_⟩
  rw [hnext]
  rcases hmove : o.move with target | - | message
  · have hafter : (t.heard o).afterDispatch = .advance := by
      simp only [afterDispatch, heard, hmove]
    have htarget : o.target? = some target := by rw [Outcome.target?, hmove]
    have hmem := Node.target_mem_of_interpret ho htarget
    rw [hafter]
    refine ⟨h.mono fun id hm => hm.imp_right fun hc => ?_, ?_, Nat.lt_succ_self _⟩
    · exact ⟨hc.1, hc.2.1, Or.inr (Or.inl rfl)⟩
    · exact ⟨hf.issued, hf.flow, hf.wellFormed, hf.node, hf.beyond,
        fun _ => ⟨o, target, rfl, htarget, hmem⟩, fun hσ => Stage.noConfusion hσ⟩
  · have hafter : (t.heard o).afterDispatch = .complete := by
      simp only [afterDispatch, heard, hmove]
    rw [hafter]
    refine ⟨h.mono fun id hm => hm.imp_right fun hc => ?_, ?_, ?_⟩
    · exact ⟨hc.1, hc.2.1, Or.inr (Or.inr rfl)⟩
    · exact ⟨hf.issued, hf.flow, hf.wellFormed, hf.node, hf.beyond,
        fun hσ => Stage.noConfusion hσ, fun _ => ⟨o, rfl⟩⟩
    · simp only [cost]
      omega
  · have hafter : (t.heard o).afterDispatch = .reprompt := by
      simp only [afterDispatch, heard, hmove]
    rw [hafter]
    refine ⟨h.mono fun id hm => ?_, ?_, ?_⟩
    · exact Or.inl (moving_of_not_carries (hstay message hmove) hm)
    · exact ⟨hf.issued, hf.flow, hf.wellFormed, hf.node, hf.beyond,
        fun hσ => Stage.noConfusion hσ, fun hσ => Stage.noConfusion hσ⟩
    · simp only [cost]
      omega

theorem leaves_hear (h : e.Sound L (t.Moving others .dispatch))
    (hf : t.Fits L e.nextSession .dispatch) (pending : Option Pending) :
    e.SameService ((t.hear pending).start e).2 ∧
      t.Leaves L others .dispatch ((t.hear pending).start e).1 ((t.hear pending).start e).2 := by
  cases hget : e.store.get? t.sessionId with
  | none =>
      rw [start_hear_of_missing hget]
      exact ⟨.refl e, leaves_missing h hget⟩
  | some s =>
      rw [start_hear hget h.replaced]
      dsimp only
      obtain ⟨hsame, hstore⟩ := sameService_if_counted e t.node pending.isSome (actionResult e pending)
      generalize (if t.node.isAction = true then
        e.counted t.node pending.isSome (actionResult e pending) else e) = e' at hsame hstore ⊢
      have hsound := h.of_same hsame hstore
      cases ho : t.node.interpret s.bindings t.givenInput (actionResult e pending) with
      | ok o =>
          refine ⟨hsame, leaves_heard hsound ?_ ho⟩
          exact hf.mono (Nat.le_of_eq hsame.nextSession.symm) (.refl _ L)
      | error err =>
          refine ⟨hsame, sound_others hsound fun _ _ _ hc => ?_, fun hf => hf⟩
          obtain ⟨target, metadata, heq⟩ :=
            Node.interpret_of_isTransient hc.1 s.bindings t.givenInput (actionResult e pending)
          rw [heq] at ho
          cases ho

theorem leaves_dispatch (h : e.Sound L (t.Moving others .dispatch))
    (hf : t.Fits L e.nextSession .dispatch) :
    e.SameService (t.dispatch.start e).2 ∧
      t.Leaves L others .dispatch (t.dispatch.start e).1 (t.dispatch.start e).2 := by
  rcases start_ask_cases h.replaced t with ⟨hget, hask⟩ | ⟨pending, e', hask, hsame, hstore, -⟩
  · rw [dispatch, start_bind_of_error hask]
    exact ⟨.refl e, leaves_missing h hget⟩
  · rw [dispatch, start_bind_of_ok hask]
    have hnext := Nat.le_of_eq hsame.nextSession.symm
    obtain ⟨h1, h2⟩ := leaves_hear (h.of_same hsame hstore) (hf.mono hnext (.refl _ L)) pending
    exact ⟨hsame.trans h1, h2⟩

/-- A session that has moved along an edge is where it should be, if it is said to
be on the move whenever it is at a conditional. -/
theorem sound_moved {s : Session} {n : Node} {moving : String → Prop}
    (h : e.Sound L (t.Moving others .advance)) (hf : t.Fits L e.nextSession .advance)
    (hget : e.store.get? t.sessionId = some s) (hn : t.flow.node? n.id = some n)
    (hbeyond : L.Beyond t.sessionId n.id) (o : Outcome) (hothers : ∀ id, others id → moving id)
    (hmoving : n.isTransient = true → moving t.sessionId) : (e.moved s n o).Sound L moving := by
  obtain ⟨hid, -, -, hpinned⟩ := h.stored hget
  have hplaced : ((s.movedTo n e.now).capture o.captured).Placed L moving e := by
    refine ⟨hid ▸ hf.issued, ?_, n, rfl, ?_, fun _ => ?_⟩
    · show e.registry.version? s.flowId s.flowVersion = some (L.pin s.id)
      rw [hid]
      exact hpinned
    · show (L.pin s.id).node? n.id = some n
      rw [hid, ← hf.flow]
      exact hn
    · show L.Beyond s.id n.id ∧ (n.isTransient = true → moving s.id)
      rw [hid]
      exact ⟨hbeyond, hmoving⟩
  have hkeep := h.keep hplaced fun id hne hmove =>
    hmove.elim (hothers id) fun hc => absurd (hc.1.trans hid.symm) hne
  exact hkeep.of_same ((e.sameService_keep _).symm.trans (e.sameService_moved s n o))
    (e.store_moved s n o)

/-- A move takes the session along an edge, to a node that is nearer to the end. -/
theorem leaves_advance (h : e.Sound L (t.Moving others .advance))
    (hf : t.Fits L e.nextSession .advance) :
    e.SameService (t.advance.start e).2 ∧
      t.Leaves L others .advance (t.advance.start e).1 (t.advance.start e).2 := by
  obtain ⟨o, target, ho, htarget, hmem⟩ := hf.leads rfl
  obtain ⟨n, hn, rfl, hedge, hrank⟩ := hf.target hmem
  cases hget : e.store.get? t.sessionId with
  | none =>
      rw [start_advance_of_missing hget ho htarget hn]
      exact ⟨.refl e, leaves_missing h hget⟩
  | some s =>
      rw [start_advance hget ho htarget hn]
      have hbeyond : L.Beyond t.sessionId n.id := hf.beyond.of_edge (hf.flow ▸ hedge)
      have hfits : ∀ σ', σ' ≠ .advance → σ' ≠ .complete →
          (t.arrived n).Fits L (e.moved s n o).nextSession σ' :=
        fun σ' h1 h2 => ⟨hf.issued, hf.flow, hf.wellFormed, hn, hbeyond,
          fun heq => absurd heq h1, fun heq => absurd heq h2⟩
      have hnext : (t.arrived n).next? .advance = some (t.arrived n).afterAdvance := rfl
      refine ⟨e.sameService_moved s n o, rfl, ?_⟩
      rw [hnext]
      cases htrans : n.isTransient with
      | true =>
          have hafter : (t.arrived n).afterAdvance = .dispatch := if_pos htrans
          have hmoved : (e.moved s n o).Sound L ((t.arrived n).Moving others .dispatch) :=
            sound_moved h hf hget hn hbeyond o (fun id ho => Or.inl ho)
              fun _ => Or.inr ⟨rfl, htrans, Or.inl rfl⟩
          rw [hafter]
          refine ⟨hmoved, hfits .dispatch nofun nofun, ?_⟩
          simp only [cost, arrived]
          omega
      | false =>
          have hafter : (t.arrived n).afterAdvance = .respond :=
            if_neg fun hc => Bool.false_ne_true (htrans.symm.trans hc)
          have hmoved : (e.moved s n o).Sound L ((t.arrived n).Moving others .respond) :=
            sound_moved h hf hget hn hbeyond o (fun id ho => Or.inl ho)
              fun hc => absurd (htrans.symm.trans hc) Bool.false_ne_true
          rw [hafter]
          refine ⟨hmoved, hfits .respond nofun nofun, ?_⟩
          simp only [cost]
          omega

/-- A session that is completed is not active any more, and one that cannot be
completed was not. -/
theorem leaves_complete (h : e.Sound L (t.Moving others .complete))
    (hf : t.Fits L e.nextSession .complete) :
    e.SameService (t.complete.start e).2 ∧
      t.Leaves L others .complete (t.complete.start e).1 (t.complete.start e).2 := by
  obtain ⟨o, ho⟩ := hf.ends rfl
  cases hget : e.store.get? t.sessionId with
  | none =>
      rw [start_complete_of_missing hget ho]
      exact ⟨.refl e, leaves_missing h hget⟩
  | some s =>
      have hp := h.placed _ s hget
      have hid : s.id = t.sessionId := KeyedList.key_of_find? hget
      have hother : ∀ id, id ≠ s.id → t.Moving others .complete id → others id :=
        fun id hne hm => hm.elim (fun ho => ho) fun hc => absurd (hc.1.trans hid.symm) hne
      cases ha : s.isActive with
      | true =>
          rw [start_complete hget ho ha]
          refine ⟨e.sameService_finished _, rfl, ?_⟩
          show (e.finished (s.capture o.captured)).Sound L others
          refine (h.keep (s := (s.capture o.captured).finishedAt e.now) ?_ hother).of_same
            ((Engine.sameService_keep ..).symm.trans (e.sameService_finished _))
            (e.store_finished _)
          exact hp.congr rfl rfl rfl rfl nofun
      | false =>
          rw [start_complete_of_not_isActive hget ho ha]
          refine ⟨e.sameService_keep _, h.keep ?_ hother, fun hf => hf⟩
          refine hp.congr rfl rfl rfl rfl fun hact => ?_
          rw [show (s.capture o.captured).isActive = s.isActive from rfl, ha] at hact
          cases hact

theorem leaves_reprompt (h : e.Sound L (t.Moving others .reprompt)) :
    e.SameService (t.reprompt.start e).2 ∧
      t.Leaves L others .reprompt (t.reprompt.start e).1 (t.reprompt.start e).2 := by
  cases hget : e.store.get? t.sessionId with
  | none =>
      rw [start_reprompt_of_missing hget]
      exact ⟨.refl e, leaves_missing h hget⟩
  | some s =>
      have hno : ¬ t.Carries .reprompt := not_carries_of_ne (by decide) (by decide) (by decide)
      rw [start_reprompt hget]
      refine ⟨e.sameService_announce .., rfl, ?_⟩
      exact (h.mono fun id => moving_of_not_carries hno).of_same (e.sameService_announce ..) rfl

theorem leaves_respond (h : e.Sound L (t.Moving others .respond)) :
    e.SameService (t.respond.start e).2 ∧
      t.Leaves L others .respond (t.respond.start e).1 (t.respond.start e).2 := by
  cases hget : e.store.get? t.sessionId with
  | none =>
      rw [start_respond_of_missing hget]
      exact ⟨.refl e, leaves_missing h hget⟩
  | some s =>
      have hno : ¬ t.Carries .respond := not_carries_of_ne (by decide) (by decide) (by decide)
      rw [start_respond hget]
      exact ⟨.refl e, rfl, h.mono fun id => moving_of_not_carries hno⟩

/-- **Stages.**  A stage takes a turn that fits to one that fits what comes next,
or ends it in a sound engine without a fault. -/
theorem leaves_perform (h : e.Sound L (t.Moving others σ)) (hf : t.Fits L e.nextSession σ) :
    e.SameService ((t.perform σ).start e).2 ∧
      t.Leaves L others σ ((t.perform σ).start e).1 ((t.perform σ).start e).2 := by
  cases σ with
  | recordInput => exact leaves_recordInput h hf
  | dispatch => exact leaves_dispatch h hf
  | advance => exact leaves_advance h hf
  | complete => exact leaves_complete h hf
  | reprompt => exact leaves_reprompt h
  | respond => exact leaves_respond h

/-! ## Whole turns -/

/-- What a whole turn leaves: an engine that is sound without it. -/
def Settles (L : Ledger) (others : String → Prop) (t : Turn) (e : Engine) :
    Except EngineError Turn × Engine → Prop
  | (.ok t', e') => e.SameService e' ∧ e'.Sound L others ∧ t'.sessionId = t.sessionId
  | (.error err, e') => e.SameService e' ∧ e'.Sound L others ∧ ¬ err.IsFault

theorem Settles.sound {r : Except EngineError Turn × Engine} (h : t.Settles L others e r) :
    r.2.Sound L others := by
  obtain ⟨r, e'⟩ := r
  cases r with
  | ok t' => exact h.2.1
  | error err => exact h.2.1

/-- A turn that has as many stages left as it costs comes to its end. -/
theorem settles_run {limit : Nat} (h : e.Sound L (t.Moving others σ))
    (hf : t.Fits L e.nextSession σ) (hcost : t.cost σ ≤ limit) :
    t.Settles L others e ((run limit σ t).start e) := by
  induction limit generalizing e t σ with
  | zero => exact absurd (t.cost_pos σ) (by omega)
  | succ limit ih =>
      obtain ⟨hsame, hleaves⟩ := leaves_perform h hf
      rw [run]
      cases hp : (t.perform σ).start e with
      | mk r e' =>
          rw [hp] at hsame hleaves
          cases r with
          | error err =>
              rw [start_bind_of_error hp]
              exact ⟨hsame, hleaves⟩
          | ok t' =>
              obtain ⟨hid, hnext⟩ := hleaves
              rw [start_bind_of_ok hp]
              cases hn : t'.next? σ with
              | none =>
                  rw [hn] at hnext
                  exact ⟨hsame, hnext, hid⟩
              | some σ' =>
                  rw [hn] at hnext
                  obtain ⟨hsound, hfits, hless⟩ := hnext
                  have hrest := ih hsound hfits (by omega)
                  show t.Settles L others e ((run limit σ' t').start e')
                  cases hr : (run limit σ' t').start e' with
                  | mk r' e'' =>
                      rw [hr] at hrest
                      cases r' with
                      | error err => exact ⟨hsame.trans hrest.1, hrest.2⟩
                      | ok t'' => exact ⟨hsame.trans hrest.1, hrest.2.1, hrest.2.2.trans hid⟩

/-- **Turns.**  A whole turn that fits leaves a sound engine, in which its
session is on the move no more, and does not fail by a fault. -/
theorem settles_play (h : e.Sound L (t.Moving others t.entry))
    (hf : t.Fits L e.nextSession t.entry) : t.Settles L others e (t.play.start e) :=
  settles_run h hf hf.cost_le_stageLimit

end Turn

end UssdFlows
