import UssdFlows.Proofs.Engine.Departures
import UssdFlows.Proofs.Service.Certified

/-!
# How often an action succeeds

An action that has succeeded should not be carried out again: a caller is not
charged twice.  This file says when that holds (`Engine.success_is_last`).  A
success is the last request for its session at its node, unless it is *lost*
(`Node.Loses`): its data cannot be stored.  Then the session stays at the node,
and the next input has the executor asked once more.

The invariant is `Engine.Spent`: every success that was not lost has taken its
session on from its node, which the session then never reaches again.  Each
operation keeps it (`Engine.Spent.perform`), and so does every run
(`Engine.Spent.after`).
-/

namespace UssdFlows

open EngineM

/-- A success of the action of a node is lost: its data hold a number that is too
long, or would have to be stored under a reserved name. -/
def Node.Loses (n : Node) (r : ActionResult) : Prop :=
  r.HasOverlong ∨ (∃ b, n.branches? = some b ∧ b.success ≠ none) ∧ n.id = "node" ∧ r.HasId

/-- A success is lost exactly if the node refuses it. -/
theorem Node.refuses_iff_loses {n : Node} {b : Branches} {input : String} {r : ActionResult}
    (hb : n.branches? = some b) (hs : r.succeeded = true) : n.Refuses input r ↔ n.Loses r := by
  rw [refuses_action_iff hb, Loses]
  refine or_congr Iff.rfl ⟨?_, ?_⟩
  · rintro ⟨-, hne, h⟩
    exact ⟨⟨b, hb, hne⟩, h⟩
  · rintro ⟨⟨b', hb', hne⟩, h⟩
    rw [hb, Option.some.injEq] at hb'
    subst hb'
    exact ⟨hs, hne, h⟩

namespace Engine

variable {L L' : Ledger} {others : String → Prop} {e e' : Engine} {id : String} {s : Session}
  {n : Node} {expiry : Instant}

/-- The executor was asked something between other requests, and `r` came of it. -/
def Answered (e : Engine) (earlier : List ActionRequest) (a : ActionRequest)
    (later : List ActionRequest) (r : ActionResult) : Prop :=
  e.requests = earlier ++ a :: later ∧
    ∃ x, e.executor = some x ∧ r = (x.answer earlier a).toResult

variable {earlier later : List ActionRequest} {a b : ActionRequest} {r : ActionResult}

theorem Answered.congr (h : e'.Answered earlier a later r) (hreq : e'.requests = e.requests)
    (hx : e'.executor = e.executor) : e.Answered earlier a later r := by
  rw [Answered, hreq, hx] at h
  exact h

/-- Of a log with one more request, the request is the last one, or it comes after
those that were there. -/
theorem Answered.cases_append (h : e'.Answered earlier a later r)
    (hreq : e'.requests = e.requests ++ [b]) (hx : e'.executor = e.executor) :
    (later = [] ∧ a = b ∧ r = e.resultFor b) ∨
      ∃ rest, later = rest ++ [b] ∧ e.Answered earlier a rest r := by
  obtain ⟨hlog, x, hexecutor, hr⟩ := h
  rw [hreq] at hlog
  rw [hx] at hexecutor
  rcases List.eq_nil_or_concat later with rfl | ⟨rest, c, rfl⟩
  · obtain ⟨rfl, hb⟩ := List.append_inj' hlog rfl
    cases hb
    refine Or.inl ⟨rfl, rfl, ?_⟩
    rw [hr, resultFor, hexecutor]
  · rw [List.concat_eq_append, ← List.cons_append, ← List.append_assoc] at hlog
    obtain ⟨hrest, hc⟩ := List.append_inj' hlog rfl
    cases hc
    exact Or.inr ⟨rest, List.concat_eq_append .., hrest, x, hexecutor, hr⟩

/-- Every success that was not lost was the last request for its session at its
node, and has taken the session on. -/
structure Spent (L : Ledger) (e : Engine) : Prop where
  left : ∀ earlier a later r, e.Answered earlier a later r → r.succeeded = true →
    ¬ a.node.Loses r → a.node.id ∈ L.behind a.session.id
  last : ∀ earlier a later r, e.Answered earlier a later r → r.succeeded = true →
    ¬ a.node.Loses r → ∀ b ∈ later, b.session.id = a.session.id → b.node.id ≠ a.node.id

/-- If nothing was asked nothing has changed. -/
theorem Spent.of_same (h : e.Spent L) (hreq : e'.requests = e.requests)
    (hx : e'.executor = e.executor) (hL : ∀ i, L.behind i ⊆ L'.behind i) : e'.Spent L' where
  left := fun _ _ _ _ ha hs hl => hL _ (h.left _ _ _ _ (ha.congr hreq hx) hs hl)
  last := fun _ _ _ _ ha => h.last _ _ _ _ (ha.congr hreq hx)

/-- A request may be added for a session that has not left the node, if a success
that is not lost makes it leave. -/
theorem Spent.append (h : e.Spent L) (hreq : e'.requests = e.requests ++ [b])
    (hx : e'.executor = e.executor) (hL : ∀ i, L.behind i ⊆ L'.behind i)
    (hb : b.node.id ∉ L.behind b.session.id)
    (hleft : (e.resultFor b).succeeded = true → ¬ b.node.Loses (e.resultFor b) →
      b.node.id ∈ L'.behind b.session.id) : e'.Spent L' where
  left := fun earlier a later r ha hs hl => by
    rcases ha.cases_append hreq hx with ⟨rfl, rfl, rfl⟩ | ⟨rest, rfl, hrest⟩
    · exact hleft hs hl
    · exact hL _ (h.left _ _ _ _ hrest hs hl)
  last := fun earlier a later r ha hs hl c hc hsession => by
    rcases ha.cases_append hreq hx with ⟨rfl, rfl, rfl⟩ | ⟨rest, rfl, hrest⟩
    · exact absurd hc List.not_mem_nil
    · rcases List.mem_append.1 hc with hc | hc
      · exact h.last _ _ _ _ hrest hs hl c hc hsession
      · rw [List.mem_singleton] at hc
        subst hc
        intro hnode
        refine hb ?_
        rw [hsession, hnode]
        exact h.left _ _ _ _ hrest hs hl

/-! ## Operations -/

/-- Performing an input is processing it. -/
theorem start_perform_input (e : Engine) (id input : String) :
    ((Operation.input id input).perform.start e).2 = ((processInput id input).start e).2 := by
  rw [Operation.perform, start_bind]
  cases (processInput id input).start e with
  | mk r e' => cases r <;> rfl

/-- An input to a session that awaits it. -/
theorem Spent.processInput_of_awaits (hspent : e.Spent L) (h : e.Sound L others)
    (ha : e.Awaits id s (L.pin id) n) (input : String) :
    ∃ L', ((processInput id input).start e).2.Sound L' others ∧
      ((processInput id input).start e).2.Spent L' := by
  have hsafe := safe_anyInput h id input
  have hx := hsafe.grows.executor
  have hsame : ((processInput id input).start e).2.requests = e.requests →
      ∃ L', ((processInput id input).start e).2.Sound L' others ∧
        ((processInput id input).start e).2.Spent L' :=
    fun hreq => ⟨L, hsafe.sound, hspent.of_same hreq hx fun _ => subset_rfl⟩
  cases htime : e.now.afterSeconds? e.settings.sessionTimeout with
  | none => exact hsame (requests_processInput_of_late ha htime input)
  | some expiry =>
      have hreq := requests_processInput h ha htime input
      rw [requests_acted] at hreq
      by_cases hasks : (n.isAction && e.executor.isSome) = true
      · rw [if_pos hasks] at hreq
        rw [Bool.and_eq_true] at hasks
        obtain ⟨b, hb⟩ := Node.isAction_iff_branches?.1 hasks.1
        have hid : (s.receivedAt input e.now expiry).id = id := ha.sameId
        have hnew : n.id ∉ L.behind (s.receivedAt input e.now expiry).id := by
          rw [hid]
          exact h.not_left ha.stored ha.active ha.resting
        by_cases hsuccess : (e.resultAt s n input expiry).succeeded = true ∧
            ¬ n.Loses (e.resultAt s n input expiry)
        · obtain ⟨hs, hkept⟩ := hsuccess
          rw [← Node.refuses_iff_loses hb hs] at hkept
          refine ⟨L.leaving id n.id, sound_processInput_of_succeeded h ha htime hb hs hkept, ?_⟩
          refine hspent.append hreq hx (L.behind_subset_leaving id n.id) hnew fun _ _ => ?_
          rw [hid]
          exact L.mem_leaving id n.id
        · refine ⟨L, hsafe.sound, hspent.append hreq hx (fun _ => subset_rfl) hnew fun hs hl => ?_⟩
          exact absurd ⟨hs, hl⟩ hsuccess
      · rw [if_neg hasks] at hreq
        exact hsame hreq

/-- **Operations.**  Every operation keeps the engine sound and the invariant. -/
theorem Spent.perform (hspent : e.Spent L) (h : e.Sound L others) (op : Operation) :
    ∃ L', (op.perform.start e).2.Sound L' others ∧ (op.perform.start e).2.Spent L' := by
  rcases Operation.perform_cases h op with ⟨c, -, -, hstart⟩ | ⟨L', hL, hbehind, hsafe⟩
  · rw [hstart]
    exact ⟨L, h, hspent⟩
  · by_cases hinput : op.IsInput
    · cases op with
      | input id input =>
          rw [start_perform_input]
          by_cases hlive : ∃ s, e.store.get? id = some s ∧ s.isLive e.now = true
          · obtain ⟨s, hget, hs⟩ := hlive
            obtain ⟨n, ha⟩ := h.awaits hget hs
            exact hspent.processInput_of_awaits h ha input
          · have hsafe : Safe L others False (processInput id input) e :=
              safe_processInput h id input fun _ s hget => by
                rw [← Bool.not_eq_true]
                exact fun hs => hlive ⟨s, hget, hs⟩
            exact ⟨L, hsafe.sound, hspent.of_same (hsafe.unasked fun hf => hf)
              hsafe.grows.executor fun _ => subset_rfl⟩
      | _ => exact absurd hinput fun hf => hf
    · refine ⟨L', hsafe.sound, hspent.of_same (hsafe.unasked hinput) hsafe.grows.executor ?_⟩
      rw [hbehind]
      exact fun _ => subset_rfl

/-- **Runs.**  After any operations the engine is sound and the invariant holds. -/
theorem Spent.after (hspent : e.Spent L) (h : e.Sound L others) (ops : List Operation) :
    ∃ L', (e.after ops).Sound L' others ∧ (e.after ops).Spent L' := by
  induction ops generalizing e L with
  | nil => exact ⟨L, h, hspent⟩
  | cons op rest ih =>
      obtain ⟨L', hsound, hspent'⟩ := hspent.perform h op
      exact ih hspent' hsound

theorem spent_fresh (settings : Settings) (sink : Option Sink) (executor : Option Executor)
    (now : Instant) (L : Ledger) : (fresh settings sink executor now).Spent L where
  left := fun earlier _ _ _ ha => by cases earlier <;> cases ha.1
  last := fun earlier _ _ _ ha => by cases earlier <;> cases ha.1

/-! ## Lost successes -/

/-- An input at an action node has the executor asked, if there is one. -/
theorem requests_of_isAction (h : e.Sound L others) (ha : e.Awaits id s (L.pin id) n)
    (htime : e.now.afterSeconds? e.settings.sessionTimeout = some expiry)
    (haction : n.isAction = true) (hx : e.executor.isSome = true) (input : String) :
    ((processInput id input).start e).2.requests =
      e.requests ++ [⟨n, s.receivedAt input e.now expiry⟩] := by
  rw [requests_processInput h ha htime, requests_acted, haction, hx]
  rfl

/-- If a node refuses what came of its action, the next input has the executor
asked again. -/
theorem answered_of_refuses (h : e.Sound L others) (ha : e.Awaits id s (L.pin id) n)
    (htime : e.now.afterSeconds? e.settings.sessionTimeout = some expiry)
    (haction : n.isAction = true) {x : Executor} (hx : e.executor = some x) {input : String}
    (hrefuses : n.Refuses input (e.resultAt s n input expiry)) (again : String) :
    ∃ a b, a.session.id = id ∧ b.session.id = id ∧ a.node = n ∧ b.node = n ∧
      (e.after [.input id input, .input id again]).Answered e.requests a [b]
        (e.resultAt s n input expiry) ∧
      (e.after [.input id input, .input id again]).Answered (e.requests ++ [a]) b []
        (x.answer (e.requests ++ [a]) b).toResult := by
  obtain ⟨hsame, ha'⟩ := awaits_of_refuses h ha htime hrefuses
  have hsound := (safe_anyInput h id input).sound
  have hx' := hsame.executor.trans hx
  have htwice : e.after [.input id input, .input id again] =
      ((processInput id again).start ((processInput id input).start e).2).2 := by
    rw [after, List.foldl_cons, List.foldl_cons, List.foldl_nil, start_perform_input,
      start_perform_input]
  have hfirst := requests_of_isAction h ha htime haction (by rw [hx]; rfl) input
  have hsecond := requests_of_isAction hsound ha' (hsame.renewal.trans htime) haction
    (by rw [hx']; rfl) again
  have hexecutor := (safe_anyInput hsound id again).grows.executor.trans hx'
  rw [hfirst, List.append_assoc] at hsecond
  rw [htwice]
  refine ⟨⟨n, s.receivedAt input e.now expiry⟩, ⟨n, (s.receivedAt input e.now expiry).receivedAt
    again ((processInput id input).start e).2.now expiry⟩, ha.sameId, ha'.sameId, rfl, rfl,
    ⟨hsecond, x, hexecutor, ?_⟩, ?_, x, hexecutor, rfl⟩
  · rw [resultAt, resultFor, hx]
  · rw [hsecond, List.append_assoc]

/-- **The last request.**  After any operations on a service that has seen nothing,
an action that has succeeded was not asked for again for the same session at
the same node, and the session does not rest there while it is active, unless
the success was lost.  And whenever a success is lost the session stays where it
is, so that two inputs have the executor asked twice. -/
theorem success_is_last {settings : Settings} {sink : Option Sink} {executor : Option Executor}
    {now : Instant} {ops : List Operation} {e : Engine}
    (he : e = (fresh settings sink executor now).after ops) :
    (∀ earlier a later r, e.Answered earlier a later r → r.succeeded = true →
      ¬ a.node.Loses r →
        (∀ b ∈ later, b.session.id = a.session.id → b.node.id ≠ a.node.id) ∧
        ∀ s, e.store.get? a.session.id = some s → s.isActive = true →
          s.currentNode ≠ some a.node.id) ∧
    ∀ id s n x expiry input again, e.store.get? id = some s → s.isLive e.now = true →
      e.nodeAt? s = some n → n.isAction = true → e.executor = some x →
      e.now.afterSeconds? e.settings.sessionTimeout = some expiry →
      (e.resultAt s n input expiry).succeeded = true → n.Loses (e.resultAt s n input expiry) →
        ∃ a b, a.session.id = id ∧ b.session.id = id ∧ a.node = n ∧ b.node = n ∧
          (e.after [.input id input, .input id again]).Answered e.requests a [b]
            (e.resultAt s n input expiry) ∧
          (e.after [.input id input, .input id again]).Answered (e.requests ++ [a]) b []
            (x.answer (e.requests ++ [a]) b).toResult := by
  subst he
  obtain ⟨L, h, hspent⟩ := (spent_fresh settings sink executor now ⟨fun _ => .blank, fun _ => ∅⟩).after
    (sound_fresh settings sink executor now (fun _ => .blank) fun _ => False) ops
  refine ⟨fun earlier a later r ha hs hl => ⟨hspent.last _ _ _ _ ha hs hl, ?_⟩, ?_⟩
  · exact fun s hget hactive hnode =>
      h.not_left hget hactive hnode (hspent.left _ _ _ _ ha hs hl)
  · intro id s n x expiry input again hget hlive hn haction hx htime hs hl
    obtain ⟨n', ha⟩ := h.awaits hget hlive
    rw [ha.nodeAt?, Option.some.injEq] at hn
    subst hn
    obtain ⟨b, hb⟩ := Node.isAction_iff_branches?.1 haction
    exact answered_of_refuses h ha htime haction hx ((Node.refuses_iff_loses hb hs).2 hl) again

end Engine

/-- A flow with a payment at a node that is called `node`. -/
def Flow.paying : Flow where
  id := "paying"
  name := none
  description := none
  version := 1
  startNode := "node"
  nodes := .ofList [
    ⟨"node", "Pay?", .payment ⟨some "done", none⟩ .zero "GHS"⟩,
    ⟨"done", "Paid", .terminal⟩]
  defaults := .empty
  one_le_version := one_le_firstVersion

/-- Two payments that succeed, each with an `id` among its data. -/
def Executor.twoPayments : Executor :=
  .prepared [.result ⟨true, [("id", .text "tx1")], none⟩, .result ⟨true, [("id", .text "tx2")], none⟩]

/-- An engine where a session was started that waits to pay. -/
def Engine.paying : Engine :=
  (fresh .standard none (some .twoPayments) ⟨0, Instant.zero_inRange⟩).after
    [.publish .paying, .create ⟨"paying", "555", "*1#"⟩]

/-- Since the payment node is called `node` both payments are lost, so that two
inputs are charged twice. -/
theorem Engine.success_not_last_paying :
    ∃ a b r r', (paying.after [.input (sessionId 1) "1", .input (sessionId 1) "1"]).Answered
        [] a [b] r ∧
      (paying.after [.input (sessionId 1) "1", .input (sessionId 1) "1"]).Answered [a] b [] r' ∧
      r.succeeded = true ∧ r'.succeeded = true ∧
      a.session.id = b.session.id ∧ a.node = b.node := by
  have hstored : (paying.store.get? (sessionId 1)).any
      (fun s => s.isLive paying.now && decide (paying.nodeAt? s =
        some ⟨"node", "Pay?", .payment ⟨some "done", none⟩ .zero "GHS"⟩)) = true := by
    decide +kernel
  have htime : (paying.now.afterSeconds? paying.settings.sessionTimeout).isSome = true := by
    decide +kernel
  have hexecutor : paying.executor = some .twoPayments := rfl
  have hrequests : paying.requests = [] := List.isEmpty_iff.1 (by decide +kernel)
  obtain ⟨s, hget, hs⟩ := (Option.any_eq_true _ _).1 hstored
  obtain ⟨expiry, hexpiry⟩ := Option.isSome_iff_exists.1 htime
  rw [Bool.and_eq_true, decide_eq_true_eq] at hs
  have hresult : paying.resultAt s ⟨"node", "Pay?", .payment ⟨some "done", none⟩ .zero "GHS"⟩ "1"
      expiry = ⟨true, [("id", .text "tx1")], none⟩ := by
    rw [resultAt, resultFor, hexecutor, hrequests]
    rfl
  have hlost : Node.Loses ⟨"node", "Pay?", .payment ⟨some "done", none⟩ .zero "GHS"⟩
      ⟨true, [("id", .text "tx1")], none⟩ :=
    Or.inr ⟨⟨⟨some "done", none⟩, rfl, Option.some_ne_none _⟩, rfl, _, List.mem_singleton_self _,
      rfl, rfl⟩
  obtain ⟨a, b, ha, hb, hna, hnb, hfirst, hsecond⟩ := (success_is_last (e := paying) rfl).2 _ s _
    _ expiry "1" "1" hget hs.1 hs.2 rfl hexecutor hexpiry (by rw [hresult]) (hresult ▸ hlost)
  rw [hresult, hrequests] at hfirst
  rw [hrequests] at hsecond
  exact ⟨a, b, _, _, hfirst, hsecond, rfl, rfl, ha.trans hb.symm, hna.trans hnb.symm⟩

end UssdFlows
