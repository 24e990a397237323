import UssdFlows.Proofs.Service.Charges

/-!
# Every session can come to its end

A flow that is published has no cycles, so no session goes round in it for ever.
It could still be stuck where it is: at a menu without options, at an input node
that leads on for no text, at an action that never succeeds.  A flow with none
of these is *passable* (`Flow.Passable`), and a session of such a flow can always
be completed, by no more inputs than the flow has nodes
(`Service.Reachable.can_complete`).

Whatever node the session rests at leads on for some input
(`Flow.Passable.exists_input`), and then the session rests at a node of lower
rank or is completed (`Engine.Near.sent`).  It does not matter when the inputs
are sent, as long as the session has not expired and its time can be renewed.
That time must be one that can be written, or else no input gets through
(`Service.parting_never_completed`).
-/

namespace UssdFlows

open EngineM

/-! ## Flows without traps -/

theorem Outcome.exists_along {o : Outcome} (h : o.isError = false) :
    ∃ target, o.move = .along target := by
  match o, h with
  | ⟨.to node, _, _⟩, _ => exact ⟨some node, rfl⟩
  | ⟨.finish, _, _⟩, _ => exact ⟨none, rfl⟩

namespace Node

/-- What a node makes of an input is a move to a node or to the end. -/
def LeadsOn (n : Node) (bindings : Dict String) (input : String) (result : ActionResult) : Prop :=
  ∃ o, n.interpret bindings input result = .ok o ∧ o.isError = false

variable {n : Node} {bindings : Dict String} {input : String} {result : ActionResult}

theorem leadsOn_iff : n.LeadsOn bindings input result ↔
    (n.interpret bindings input result).toOption.any (fun o => !o.isError) = true := by
  rw [LeadsOn, any_toOption_iff]
  exact exists_congr fun o => and_congr Iff.rfl (by rw [Bool.not_eq_true'])

/-- A menu leads on for the key of its first option. -/
theorem leadsOn_firstKey {o : MenuOption} {rest : List MenuOption}
    (h : n.behaviour = .menu (o :: rest)) : n.LeadsOn bindings o.key result := by
  have hfound : n.option? (Text.strip o.key) = some o := by
    rw [Text.strip_of_isTrimmed o.key_trimmed, option?, options, h]
    exact List.find?_cons_of_pos (beq_self_eq_true _)
  rw [LeadsOn, interpret_menu h, Handler.choose_of_some hfound]
  refine ⟨_, rfl, ?_⟩
  cases o.target <;> rfl

theorem leadsOn_of_isTransient (h : n.isTransient = true) : n.LeadsOn bindings input result := by
  obtain ⟨target, metadata, ho⟩ := interpret_of_isTransient h bindings input result
  refine ⟨_, ho, ?_⟩
  cases target <;> rfl

theorem leadsOn_of_terminal (h : n.behaviour = .terminal) : n.LeadsOn bindings input result :=
  ⟨_, interpret_terminal h, rfl⟩

/-- An action node leads on when its action succeeds, unless it refuses the success. -/
theorem leadsOn_of_succeeded {b : Branches} (hb : n.branches? = some b)
    (hs : result.succeeded = true) (haccepts : ¬ n.Refuses input result) :
    n.LeadsOn bindings input result := by
  rcases n.interpret_cases bindings input result with ⟨hrefuses, -⟩ | ⟨-, o, ho⟩
  · exact absurd hrefuses haccepts
  · refine ⟨o, ho, ?_⟩
    rw [Outcome.isError, Outcome.error?, move_of_succeeded hb hs ho]
    cases b.success <;> rfl

end Node

/-- Actions that are simulated to succeed have every action node lead on. -/
theorem Executor.leadsOn_simulated {n : Node} (haction : n.isAction = true) {e : Engine}
    (hx : e.executor = some (.simulated true)) (s : Session) (bindings : Dict String)
    (input : String) : n.LeadsOn bindings input (e.resultFor ⟨n, s⟩) := by
  obtain ⟨b, hb⟩ := Node.isAction_iff_branches?.1 haction
  have hresult : e.resultFor ⟨n, s⟩ = ⟨true, ("status", .text "simulated") :: charge n, none⟩ := by
    rw [Engine.resultFor, hx]
    rfl
  have hdata : ∀ m ∈ ("status", .text "simulated") :: charge n,
      ActionResult.isOverlong m.2 = false ∧ m.1 ≠ "id" := by
    obtain ⟨id, text, behaviour⟩ := n
    cases behaviour <;> simp [charge, ActionResult.isOverlong]
  rw [hresult]
  refine Node.leadsOn_of_succeeded hb rfl fun hrefuses => ?_
  rcases (Node.refuses_action_iff hb).1 hrefuses with ⟨m, hm, hlong⟩ | ⟨-, -, -, m, hm, hid, -⟩
  · exact Bool.false_ne_true ((hdata m hm).1.symm.trans hlong)
  · exact (hdata m hm).2 hid

namespace Flow

variable {f : Flow} {x : Option Executor}

/-- A flow in which no node holds a session for ever: an examination of it, whatever
the limits, finds no empty menu, every input node leads on for some text, and
the executor sees to it that every action node leads on.  Errors are out of the
question, since no flow that has any is published. -/
structure Passable (f : Flow) (x : Option Executor) : Prop where
  menus : ∃ limits, ∀ i ∈ (f.report limits).findings, i.kind ≠ "empty_menu"
  inputs : ∀ n ∈ f.nodes.items, n.kind = .input →
    ∃ bindings text result, n.LeadsOn bindings text result
  actions : ∀ n ∈ f.nodes.items, n.isAction = true → ∀ (e : Engine) s bindings input,
    e.executor = x → n.LeadsOn bindings input (e.resultFor ⟨n, s⟩)

/-- An empty menu is found. -/
theorem emptyMenu_mem_findings {n : Node} (hn : n ∈ f.nodes.items) (h : n.behaviour = .menu [])
    (limits : Limits) : .emptyMenu n.id ∈ (f.report limits).findings := by
  have hfound : .emptyMenu n.id ∈ f.nodes.items.flatMap checkMenu :=
    List.mem_flatMap.2 ⟨n, hn, by rw [checkMenu, h]; exact List.mem_singleton_self _⟩
  show _ ∈ f.findings limits
  simp only [findings, List.mem_append]
  exact Or.inl (Or.inl (Or.inl (Or.inr hfound)))

/-- **Ways on.**  For every node of a passable flow there is an input for which it
leads on, whatever the session holds by then. -/
theorem Passable.exists_input (h : f.Passable x) {n : Node} (hn : n ∈ f.nodes.items) :
    ∃ input, ∀ (e : Engine) s bindings, e.executor = x →
      n.LeadsOn bindings input (e.resultFor ⟨n, s⟩) := by
  cases hb : n.behaviour with
  | menu options =>
      cases options with
      | nil =>
          obtain ⟨limits, hnone⟩ := h.menus
          exact absurd rfl (hnone _ (emptyMenu_mem_findings hn hb limits))
      | cons o rest => exact ⟨o.key, fun e s bindings _ => Node.leadsOn_firstKey hb⟩
  | input spec next =>
      obtain ⟨bindings, text, result, hleads⟩ := h.inputs n hn (by rw [Node.kind, hb])
      refine ⟨text, fun e s bindings' _ => ?_⟩
      rw [Node.LeadsOn, Node.interpret_input hb] at hleads ⊢
      exact hleads
  | conditional c b next =>
      refine ⟨"", fun e s bindings _ => Node.leadsOn_of_isTransient ?_⟩
      rw [Node.isTransient, Node.kind, hb]
      rfl
  | payment b amount currency =>
      exact ⟨"", fun e s bindings hx => h.actions n hn (by rw [Node.isAction, Node.kind, hb]; rfl)
        e s bindings "" hx⟩
  | api b url method =>
      exact ⟨"", fun e s bindings hx => h.actions n hn (by rw [Node.isAction, Node.kind, hb]; rfl)
        e s bindings "" hx⟩
  | terminal => exact ⟨"", fun e s bindings _ => Node.leadsOn_of_terminal hb⟩

end Flow

/-! ## Sending inputs -/

namespace Engine

/-- The session is completed. -/
def HasCompleted (e : Engine) (id : String) : Prop :=
  ∃ s, e.store.get? id = some s ∧ s.status = .completed

/-- An input may be sent at an instant: the session has not expired by then, and
its time can be renewed. -/
structure Admits (e : Engine) (id : String) (now : Instant) : Prop where
  live : ∃ s, e.store.get? id = some s ∧ s.isLive now = true
  renewable : ∃ expiry, now.afterSeconds? e.settings.sessionTimeout = some expiry

/-- The engine after an input that was sent to a session at an instant. -/
def sent (e : Engine) (id : String) (now : Instant) (input : String) : Engine :=
  e.after [.turnClock now, .input id input]

/-- Inputs that are sent at the instants of a clock, each of which may be sent by
then, complete the session. -/
def CompletesBy (id : String) : (clock : Nat → Instant) → (inputs : List String) → Engine → Prop
  | _, [], e => e.HasCompleted id
  | clock, input :: rest, e =>
    e.Admits id (clock 0) →
      CompletesBy id (fun i => clock (i + 1)) rest (e.sent id (clock 0) input)

/-- The session can be completed by so many inputs, whenever they are sent; an
input that does not complete it leaves it ready for the next one. -/
def CanComplete (id : String) : Nat → Engine → Prop
  | 0, e => e.HasCompleted id
  | k + 1, e =>
    e.HasCompleted id ∨ ∃ input, ∀ now, e.Admits id now →
      CanComplete id k (e.sent id now input) ∧
        ((e.sent id now input).HasCompleted id ∨ (e.sent id now input).Admits id now)

variable {L : Ledger} {others : String → Prop} {e : Engine} {f : Flow} {id : String} {k : Nat}
  {now : Instant}

/-- For every clock there are inputs that complete the session. -/
theorem CanComplete.completesBy (h : e.CanComplete id k) (clock : Nat → Instant) :
    ∃ inputs, inputs.length ≤ k ∧ e.CompletesBy id clock inputs := by
  induction k generalizing e clock with
  | zero => exact ⟨[], Nat.le_refl 0, h⟩
  | succ k ih =>
      rcases h with hdone | ⟨input, hinput⟩
      · exact ⟨[], Nat.zero_le _, hdone⟩
      · by_cases ha : e.Admits id (clock 0)
        · obtain ⟨inputs, hlength, hby⟩ := ih (hinput _ ha).1 fun i => clock (i + 1)
          exact ⟨input :: inputs, Nat.succ_le_succ hlength, fun _ => hby⟩
        · exact ⟨[input], Nat.succ_le_succ (Nat.zero_le k), fun hc => absurd hc ha⟩

/-- If inputs may be sent at an instant, inputs that are all sent then complete the
session. -/
theorem CanComplete.completes_at (h : e.CanComplete id k) (ha : e.Admits id now) :
    ∃ inputs : List String, inputs.length ≤ k ∧
      (inputs.foldl (fun e input => e.sent id now input) e).HasCompleted id := by
  induction k generalizing e with
  | zero => exact ⟨[], Nat.le_refl 0, h⟩
  | succ k ih =>
      rcases h with hdone | ⟨input, hinput⟩
      · exact ⟨[], Nat.zero_le _, hdone⟩
      · obtain ⟨hcan, hdone | ha'⟩ := hinput now ha
        · exact ⟨[input], Nat.succ_le_succ (Nat.zero_le k), hdone⟩
        · obtain ⟨inputs, hlength, hby⟩ := ih hcan ha'
          exact ⟨input :: inputs, Nat.succ_le_succ hlength, hby⟩

theorem sent_eq (e : Engine) (id : String) (now : Instant) (input : String) :
    e.sent id now input = ((processInput id input).start { e with now }).2 :=
  start_perform_input { e with now } id input

/-- The clock has no part in soundness. -/
theorem Sound.turnClock (h : e.Sound L others) (now : Instant) :
    ({ e with now } : Engine).Sound L others where
  replaced := h.replaced
  registry := h.registry
  placed := fun id s hget => (h.placed id s hget).mono ⟨fun _ hf => hf, Nat.le_refl _, rfl⟩
    (.refl _ L) fun hm => hm
  fresh := h.fresh

/-- The session, which walks through a flow, is completed, or it rests at a node
from which fewer than so many nodes can be reached. -/
structure Near (L : Ledger) (others : String → Prop) (f : Flow) (id : String) (k : Nat)
    (e : Engine) : Prop where
  sound : e.Sound L others
  pinned : L.pin id = f
  stands : e.HasCompleted id ∨ ∃ s n, e.store.get? id = some s ∧ s.isActive = true ∧
    s.currentNode = some n.id ∧ f.node? n.id = some n ∧ f.rank n.id < k

/-- A session that is stored and active rests at a node. -/
theorem Sound.node_of_isActive (h : e.Sound L others) {s : Session}
    (hget : e.store.get? id = some s) (ha : s.isActive = true) :
    ∃ n, s.currentNode = some n.id ∧ (L.pin id).node? n.id = some n ∧ L.Beyond id n.id := by
  obtain ⟨hid, -⟩ := h.stored hget
  obtain ⟨n, hnode, hn, hactive⟩ := (h.placed id s hget).resting
  rw [hid] at hn hactive
  exact ⟨n, hnode, hn, (hactive ha).1⟩

/-- **Steps to the end.**  At every node of a passable flow some input, whenever it
may be sent, brings the session nearer to the end. -/
theorem Near.sent (h : e.Near L others f id (k + 1)) (hp : f.Passable e.executor)
    (hopen : ¬ e.HasCompleted id) :
    ∃ input, ∀ now, e.Admits id now →
      (∃ L', (e.sent id now input).Near L' others f id k) ∧
        (e.sent id now input).executor = e.executor ∧
        ((e.sent id now input).HasCompleted id ∨ (e.sent id now input).Admits id now) := by
  obtain ⟨hsound, rfl, hstands⟩ := h
  obtain ⟨s, n, hget, hactive, hnode, hn, hrank⟩ := hstands.resolve_left hopen
  obtain ⟨input, hinput⟩ := hp.exists_input (KeyedList.mem_of_find? hn)
  refine ⟨input, fun now ⟨⟨s', hget', hlive⟩, expiry, hexpiry⟩ => ?_⟩
  rw [hget, Option.some.injEq] at hget'
  subst hget'
  rw [Session.isLive, Bool.and_eq_true, Bool.not_eq_true'] at hlive
  have hsound' := hsound.turnClock now
  have hawaits : ({ e with now } : Engine).Awaits id s (L.pin id) n :=
    ⟨hget, hactive, hlive.2, (hsound.stored hget).2.2.2, by rw [hnode]; exact hn⟩
  obtain ⟨o, ho, hleads⟩ := hinput { e with now } (s.receivedAt input now expiry) s.bindings rfl
  obtain ⟨target, hmove⟩ := Outcome.exists_along hleads
  obtain ⟨hsame, hleft, s', hstored, hexpires, hs'⟩ :=
    processInput_of_along hsound' hawaits hexpiry ho hmove
  rw [sent_eq]
  refine ⟨⟨_, hleft, rfl, ?_⟩, hsame.executor, ?_⟩
  · refine hs'.symm.imp (fun hdone => ⟨s', hstored, hdone⟩) fun ha => ?_
    obtain ⟨n', hnode', hn', hbeyond⟩ := hleft.node_of_isActive hstored ha
    have hpath := hbeyond n.id (L.mem_leaving id n.id)
    have hacyclic := (hsound.stored hget).2.2.1.acyclic
    exact ⟨s', n', hstored, ha, hnode', hn',
      Nat.lt_of_lt_of_le (Flow.rank_lt_of_transGen hacyclic hpath) (Nat.le_of_lt_succ hrank)⟩
  · refine hs'.symm.imp (fun hdone => ⟨s', hstored, hdone⟩) fun ha => ?_
    refine ⟨⟨s', hstored, ?_⟩, expiry, ?_⟩
    · rw [Session.isLive, ha, Session.isPastExpiry, hexpires, Bool.true_and]
      exact congrArg _ (s.isPastExpiry_receivedAt input e.settings.timeout_pos hexpiry)
    · rw [hsame.settings]
      exact hexpiry

/-- A session that is near its end can be completed. -/
theorem Near.canComplete (h : e.Near L others f id k) (hp : f.Passable e.executor) :
    e.CanComplete id k := by
  induction k generalizing e L with
  | zero => exact h.stands.resolve_right fun ⟨_, _, _, _, _, _, hrank⟩ => Nat.not_lt_zero _ hrank
  | succ k ih =>
      by_cases hdone : e.HasCompleted id
      · exact Or.inl hdone
      · obtain ⟨input, hinput⟩ := h.sent hp hdone
        refine Or.inr ⟨input, fun now ha => ?_⟩
        obtain ⟨⟨L', hnear⟩, hx, hready⟩ := hinput now ha
        exact ⟨ih hnear (hx ▸ hp), hready⟩

end Engine

/-- **No traps.**  In every state that a service can be in, an active session that
is pinned to a passable flow can be completed by no more inputs than the flow
has nodes: whatever the instants at which they are sent, if the session has not
expired by then and its time can be renewed.  An instant at which the first of
them may be sent will do for all of them. -/
theorem Service.Reachable.can_complete {w : Service} (hw : w.Reachable) {id : String} {s : Session}
    {f : Flow} (hget : w.engine.store.get? id = some s) (ha : s.isActive = true)
    (hpinned : w.engine.registry.version? s.flowId s.flowVersion = some f)
    (hp : f.Passable w.engine.executor) :
    (∀ clock, ∃ inputs, inputs.length ≤ f.size ∧ w.engine.CompletesBy id clock inputs) ∧
      ∀ now, w.engine.Admits id now → ∃ inputs : List String, inputs.length ≤ f.size ∧
        (inputs.foldl (fun e input => e.sent id now input) w.engine).HasCompleted id := by
  obtain ⟨L, h⟩ := hw.sound
  obtain ⟨-, -, hwf, hpin⟩ := h.engine.stored hget
  rw [hpinned, Option.some.injEq] at hpin
  subst hpin
  obtain ⟨n, hnode, hn, -⟩ := h.engine.node_of_isActive hget ha
  have hhas : (L.pin id).hasNode n.id = true :=
    KeyedList.contains_iff.2 (List.mem_map.2 ⟨n, KeyedList.mem_of_find? hn, rfl⟩)
  have hnear : w.engine.Near L w.Moving (L.pin id) id (L.pin id).size :=
    ⟨h.engine, rfl, Or.inr ⟨s, n, hget, ha, hnode, hn, Flow.rank_lt_size hwf.acyclic hhas⟩⟩
  have hcan := hnear.canComplete hp
  exact ⟨hcan.completesBy, fun now => hcan.completes_at⟩

/-- Tea is paid for once a name is given; the way out of the menu ends the session. -/
def Flow.ordering : Flow where
  id := "ordering"
  name := none
  description := none
  version := 1
  startNode := "pick"
  nodes := .ofList [
    ⟨"pick", "1 Tea, 2 Leave",
      .menu [⟨"1", "Tea", some "name", by decide⟩, ⟨"2", "Leave", none, by decide⟩]⟩,
    ⟨"name", "Your name?", .input ⟨"name", true, none⟩ (some "pay")⟩,
    ⟨"pay", "Pay?", .payment ⟨some "bye", none⟩ .zero "GHS"⟩,
    ⟨"bye", "Thanks", .terminal⟩]
  defaults := .empty
  one_le_version := one_le_firstVersion

/-- If actions are simulated to succeed, nothing in that flow holds a session. -/
theorem Flow.passable_ordering : Flow.ordering.Passable (some (.simulated true)) where
  menus := ⟨.standard, by decide +kernel⟩
  inputs := fun n hn hkind => by
    have hall : ∀ n ∈ ordering.nodes.items, n.kind = .input →
        (n.interpret .empty "Ada" (.failed "")).toOption.any (fun o => !o.isError) = true := by
      decide +kernel
    exact ⟨.empty, "Ada", .failed "", Node.leadsOn_iff.2 (hall n hn hkind)⟩
  actions := fun n _ haction e s bindings input hx =>
    Executor.leadsOn_simulated haction hx s bindings input

/-- A service with that flow where a session was started. -/
def Service.ordering : Service :=
  ((fresh .standard none (some (.simulated true)) ⟨0, Instant.zero_inRange⟩).perform
    (.publish .ordering)).perform (.create ⟨"ordering", "555", "*1#"⟩)

/-- The session can be completed by four inputs that are all sent at once. -/
theorem Service.can_complete_ordering :
    ordering.Reachable ∧ ordering.engine.Admits (sessionId 1) ordering.engine.now ∧
      ∃ s, ordering.engine.store.get? (sessionId 1) = some s ∧ s.isActive = true ∧
        ordering.engine.registry.version? s.flowId s.flowVersion = some .ordering ∧
        Flow.ordering.Passable ordering.engine.executor ∧
        ∃ inputs : List String, inputs.length ≤ 4 ∧
          (inputs.foldl (fun e input => e.sent (sessionId 1) ordering.engine.now input)
            ordering.engine).HasCompleted (sessionId 1) := by
  have hreachable : ordering.Reachable :=
    ((Reachable.fresh ..).step (.perform _ (.publish .ordering))).step
      (.perform _ (.create ⟨"ordering", "555", "*1#"⟩))
  have hstored : (ordering.engine.store.get? (sessionId 1)).any (fun s =>
      s.isLive ordering.engine.now &&
        decide (ordering.engine.registry.version? s.flowId s.flowVersion = some .ordering)) =
      true := by decide +kernel
  have htime : (ordering.engine.now.afterSeconds? ordering.engine.settings.sessionTimeout).isSome =
      true := by decide +kernel
  obtain ⟨s, hget, hs⟩ := (Option.any_eq_true _ _).1 hstored
  rw [Bool.and_eq_true, decide_eq_true_eq] at hs
  have hadmits : ordering.engine.Admits (sessionId 1) ordering.engine.now :=
    ⟨⟨s, hget, hs.1⟩, Option.isSome_iff_exists.1 htime⟩
  have hactive : s.isActive = true := (Bool.and_eq_true_iff.1 hs.1).1
  have hpassable : Flow.ordering.Passable ordering.engine.executor := Flow.passable_ordering
  exact ⟨hreachable, hadmits, s, hget, hactive, hs.2, hpassable,
    (hreachable.can_complete hget hactive hs.2 hpassable).2 _ hadmits⟩

/-! ## Times that cannot be written -/

/-- As long as the time of a session cannot be renewed no inputs complete it. -/
theorem Engine.not_hasCompleted_of_late {L : Ledger} {others : String → Prop} {e : Engine}
    {id : String} {s : Session} (h : e.Sound L others) (hget : e.store.get? id = some s)
    (ha : s.isActive = true) (inputs : List (Instant × String))
    (hlate : ∀ i ∈ inputs, s.isPastExpiry i.1 = false ∧
      i.1.afterSeconds? e.settings.sessionTimeout = none) :
    ¬ (inputs.foldl (fun e i => e.sent id i.1 i.2) e).HasCompleted id := by
  induction inputs generalizing e s with
  | nil =>
      rintro ⟨s', hget', hdone⟩
      rw [List.foldl_nil, hget, Option.some.injEq] at hget'
      subst hget'
      rw [Session.isActive, hdone] at ha
      cases ha
  | cons i rest ih =>
      obtain ⟨hpast, htime⟩ := hlate i (List.mem_cons_self ..)
      have hsound := h.turnClock i.1
      obtain ⟨n, hnode, hn, -⟩ := h.node_of_isActive hget ha
      have hawaits : ({ e with now := i.1 } : Engine).Awaits id s (L.pin id) n :=
        ⟨hget, ha, hpast, (h.stored hget).2.2.2, by rw [hnode]; exact hn⟩
      have hkept := processInput_of_late hawaits htime i.2
      have hnext : (e.sent id i.1 i.2).store.get? id = some (s.record i.2 i.1) := by
        rw [sent_eq, hkept.store, Engine.get?_keep]
        exact if_pos hawaits.sameId
      have hsettings : (e.sent id i.1 i.2).settings = e.settings := by
        rw [sent_eq, hkept.service.settings]
        rfl
      have hsound' : (e.sent id i.1 i.2).Sound L others := by
        rw [sent_eq]
        exact (safe_anyInput hsound id i.2).sound
      rw [List.foldl_cons]
      refine ih hsound' hnext ha fun j hj => ?_
      rw [hsettings]
      exact hlate j (List.mem_cons_of_mem _ hj)

/-- Sessions live until the last second that can be written. -/
def Settings.endless : Settings :=
  { Settings.standard with sessionTimeout := 315537897599, timeout_pos := by decide }

/-- A flow that only says goodbye. -/
def Flow.parting : Flow where
  id := "parting"
  name := none
  description := none
  version := 1
  startNode := "bye"
  nodes := .ofList [⟨"bye", "Thanks", .terminal⟩]
  defaults := .empty
  one_le_version := one_le_firstVersion

theorem Flow.passable_parting : Flow.parting.Passable none where
  menus := ⟨.standard, by decide +kernel⟩
  inputs := fun n hn hkind => by
    have hall : ∀ n ∈ parting.nodes.items, n.kind ≠ .input := by decide
    exact absurd hkind (hall n hn)
  actions := fun n hn haction => by
    have hall : ∀ n ∈ parting.nodes.items, n.isAction = false := by decide
    rw [hall n hn] at haction
    cases haction

/-- A service with that flow, a second after a session was started. -/
def Service.parting : Service :=
  (((fresh .endless none none ⟨0, Instant.zero_inRange⟩).perform (.publish .parting)).perform
    (.create ⟨"parting", "555", "*1#"⟩)).perform (.turnClock ⟨1000000, Instant.second_inRange⟩)

/-- A second after the start of time the time of a session could be renewed only
to an instant that cannot be written. -/
theorem Instant.endless_late {now : Instant} (h : now.before ⟨1000000, Instant.second_inRange⟩ = false) :
    now.afterSeconds? Settings.endless.sessionTimeout = none := by
  rw [before, decide_eq_false_iff_not] at h
  rw [afterSeconds?, shift?, ofMicros?, dif_neg]
  have htimeout : Settings.endless.sessionTimeout = 315537897599 := rfl
  rw [htimeout]
  dsimp only at h
  omega

/-- The session has not expired and its flow is passable, but no inputs complete it
while it has not expired. -/
theorem Service.parting_never_completed :
    parting.Reachable ∧ parting.IsQuiet ∧ (∀ limits, (Flow.parting.report limits).isValid = true) ∧
      Flow.parting.Passable parting.engine.executor ∧
      ∃ s, parting.engine.store.get? (sessionId 1) = some s ∧
        s.isLive parting.engine.now = true ∧
        parting.engine.registry.version? s.flowId s.flowVersion = some .parting ∧
        ∀ inputs : List (Instant × String),
          (∀ i ∈ inputs, i.1.before parting.engine.now = false ∧ s.isPastExpiry i.1 = false) →
            ¬ (inputs.foldl (fun e i => e.sent (sessionId 1) i.1 i.2)
              parting.engine).HasCompleted (sessionId 1) := by
  have hreachable : parting.Reachable :=
    (((Reachable.fresh ..).step (.perform _ (.publish .parting))).step
      (.perform _ (.create ⟨"parting", "555", "*1#"⟩))).step (.perform _ (.turnClock _))
  have hvalid : (Flow.parting.report .standard).isValid = true := by decide +kernel
  have hwf := Flow.isValid_iff_wellFormed.1 hvalid
  have hstored : (parting.engine.store.get? (sessionId 1)).any (fun s =>
      s.isLive parting.engine.now &&
        decide (parting.engine.registry.version? s.flowId s.flowVersion = some .parting)) =
      true := by decide +kernel
  obtain ⟨s, hget, hs⟩ := (Option.any_eq_true _ _).1 hstored
  rw [Bool.and_eq_true, decide_eq_true_eq] at hs
  have hactive : s.isActive = true := (Bool.and_eq_true_iff.1 hs.1).1
  have hnow : parting.engine.now = ⟨1000000, Instant.second_inRange⟩ := by decide +kernel
  have hsettings : parting.engine.settings = .endless := by decide +kernel
  have hquiet : parting.tasks.all (·.phase.isFinished) = true := by decide +kernel
  obtain ⟨L, h⟩ := hreachable.sound
  refine ⟨hreachable, List.all_eq_true.1 hquiet, fun limits => Flow.isValid_iff_wellFormed.2 hwf,
    Flow.passable_parting, s, hget, hs.1, hs.2, fun inputs hin => ?_⟩
  refine Engine.not_hasCompleted_of_late h.engine hget hactive inputs fun i hi => ⟨(hin i hi).2, ?_⟩
  rw [hsettings]
  exact Instant.endless_late (hnow ▸ (hin i hi).1)

end UssdFlows
