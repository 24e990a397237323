import UssdFlows.Proofs.Engine.Calls
import UssdFlows.Proofs.Engine.Departures
import UssdFlows.Proofs.Service.Exits
import UssdFlows.Proofs.Service.Settlements

/-!
# At most one action per input

An input to a live session that rests at a node with an action has that action carried
out once: it is announced, its result is counted, and the executor, if there is one, is
asked for the action of that very node (`Engine.Awaits.calls_processInput`).  What the
turn does next is what the node makes of that same result (`Branches.route`), so nothing
is counted as a success that is followed as a failure.  Every other input abstains, and
so do all operations that are no inputs (`Service.Reachable.one_call`).

The time of the session is renewed before its node is asked.  If that fails the input
does, and the action is not carried out (`Service.one_call_billing_late`).
-/

namespace UssdFlows

open EngineM

variable {L : Ledger} {others : String → Prop} {e e' : Engine} {id : String} {s : Session}
  {f : Flow} {n : Node} {input : String} {expiry : Instant}

/-! ## Where an action leads -/

/-- Where the result of an action leads. -/
def Branches.route (b : Branches) (succeeded : Bool) : Move :=
  if succeeded then .along b.success
  else
    match b.failure with
    | some target => .to target
    | none => .stay "Action failed"

/-- What is not refused goes where the result leads. -/
theorem Node.move_eq_route {b : Branches} {bindings : Dict String} {r : ActionResult} {o : Outcome}
    (hb : n.branches? = some b) (ho : n.interpret bindings input r = .ok o) :
    o.move = b.route r.succeeded := by
  cases hs : r.succeeded with
  | true => exact move_of_succeeded hb hs ho
  | false =>
      rw [interpret_action hb] at ho
      by_cases hl : r.HasOverlong
      · rw [Handler.afterAction_of_hasOverlong hl] at ho
        cases ho
      · obtain ⟨metadata, heq⟩ := Handler.afterAction_of_failed n.id b hl hs
        rw [heq] at ho
        rw [Branches.route, if_neg Bool.false_ne_true]
        cases hfailure : b.failure with
        | none =>
            rw [hfailure] at ho
            cases ho
            rfl
        | some target =>
            rw [hfailure] at ho
            cases ho
            rfl

/-! ## The calls of an input -/

namespace Engine

/-- The call that an input makes at a node with an action. -/
def callAt (e : Engine) (s : Session) (n : Node) (input : String) (expiry : Instant) : ActionCall :=
  ⟨⟨n, s.receivedAt input e.now expiry⟩, (e.resultAt s n input expiry).succeeded⟩

theorem abstains_received (e : Engine) (s : Session) (input : String) :
    e.Abstains (e.received s input) := by
  have hkept : e.Abstains (e.keep s) := abstains_of_same rfl rfl rfl rfl
  exact hkept.trans ((e.keep s).abstains_announce s none _ nofun)

namespace Awaits

/-- **One call.**  An input to a session at a node with an action makes one call. -/
theorem calls_processInput (ha : e.Awaits id s f n) (hr : e.replaced = [])
    (htime : e.now.afterSeconds? e.settings.sessionTimeout = some expiry)
    (hn : n.isAction = true) (input : String) :
    e.Calls [e.callAt s n input expiry] ((processInput id input).start e).2 := by
  refine Engine.calls_processInput fun locks => ?_
  have ha' := (e.alike_locks locks).awaits ha
  generalize hs' : s.receivedAt input e.now expiry = s'
  have hreceived := ({ e with locks } : Engine).abstains_received s' input
  have hacted := hreceived.calls ((({ e with locks } : Engine).received s' input).calls_acted s' hn)
  have hcall : (⟨⟨n, s'⟩, ((({ e with locks } : Engine).received s' input).resultFor
      ⟨n, s'⟩).succeeded⟩ : ActionCall) = e.callAt s n input expiry := by
    rw [← hs']
    rfl
  rw [hcall] at hacted
  rw [start_answerInput_state ha', Turn.start_play_ofInput ha' hr htime]
  cases n.interpret s.bindings input (({ e with locks } : Engine).resultAt s n input expiry) with
  | error err => exact hs' ▸ hacted
  | ok o =>
      have hrest := Turn.abstaining_run (Turn.stageLimit f - 2)
        (Turn.isSmooth_afterDispatch ((Turn.ofInput id f n input).heard o)).isQuiet
      exact hs' ▸ hacted.abstains (hrest _)

/-- An input to a session at any other node makes none, and neither does one whose time
cannot be renewed. -/
theorem abstains_processInput (ha : e.Awaits id s f n)
    (h : n.isAction = false ∨ e.now.afterSeconds? e.settings.sessionTimeout = none)
    (input : String) : e.Abstains ((processInput id input).start e).2 := by
  refine Engine.calls_processInput fun locks => ?_
  have ha' := (e.alike_locks locks).awaits ha
  rw [start_answerInput_state ha']
  rcases h with hn | htime
  · exact Turn.abstaining_play (.inr hn) _
  · rw [Turn.start_play_ofInput_of_late ha'.stored htime]
    exact abstains_of_same rfl rfl rfl rfl

end Awaits

/-- An input that no live session awaits makes no call. -/
theorem abstains_processInput (h : ∀ s, e.store.get? id = some s → s.isLive e.now = false)
    (input : String) : e.Abstains ((processInput id input).start e).2 := by
  refine calls_processInput fun locks => ?_
  refine abstains_bind (abstaining_admission id input _) fun a e' hstart => ?_
  rcases a with t | status | -
  · obtain ⟨-, s, _, _, hget, hlive, -⟩ := admission_admitted hstart
    rw [h s hget] at hlive
    cases hlive
  · exact .refl e'
  · exact .refl e'

/-- A turn goes where the result of its action leads, unless the node refuses that. -/
def RoutedBy (e : Engine) (s : Session) (f : Flow) (n : Node) (input : String) (expiry : Instant)
    (r : Except EngineError Navigation) : Prop :=
  let result := e.resultAt s n input expiry
  (n.Refuses input result ∧ ∃ err, r = .error (.handler err)) ∨
    ∃ b o bindings path ending, n.branches? = some b ∧
      n.interpret s.bindings input result = .ok o ∧ o.move = b.route result.succeeded ∧
      f.Follows n s.bindings o bindings path ending ∧
      r = .ok (ending.navigation
        (ending.session e.now { s.receivedAt input e.now expiry with bindings }))

theorem Sound.routedBy (h : e.Sound L others) (ha : e.Awaits id s (L.pin id) n)
    (htime : e.now.afterSeconds? e.settings.sessionTimeout = some expiry)
    (hn : n.isAction = true) (input : String) :
    e.RoutedBy s (L.pin id) n input expiry ((processInput id input).start e).1 := by
  cases ho : n.interpret s.bindings input (e.resultAt s n input expiry) with
  | error err =>
      have hrefuses := Node.interpret_error_iff.1 ⟨err, ho⟩
      rcases processInput_cases h ha htime input with ⟨-, err', e', hstart, -⟩ | ⟨haccepts, -⟩
      · exact Or.inl ⟨hrefuses, err', by rw [hstart]⟩
      · exact absurd hrefuses haccepts
  | ok o =>
      have hwf := (h.stored ha.stored).2.2.1
      obtain ⟨b, hb⟩ := Node.isAction_iff_branches?.1 hn
      obtain ⟨bindings, path, ending, hfollows⟩ := hwf.exists_follows ha.found ho
      obtain ⟨e', hstart, -⟩ := ha.start_processInput hwf h.replaced htime ho hfollows
      exact Or.inr ⟨b, o, bindings, path, ending, hb, ho, Node.move_eq_route hb ho, hfollows,
        by rw [hstart]⟩

end Engine

/-! ## In every state of the service -/

namespace Service

/-- **At most one action per input.**  In every state of a service, whatever its executor
does, an input to a live session at a node with an action makes one call, which is for
that node, and goes where the result of this call leads; only if the time of the session
cannot be renewed it makes none.  An input to a live session at any other node makes no
call, and neither does one to a session that is not live or is not stored.  Starting and
ending sessions and sweeping them up make no calls either. -/
theorem Reachable.one_call {w : Service} (hw : w.Reachable) (id input : String) :
    let e := w.engine
    let after := (processInput id input).start e
    (∀ s, e.store.get? id = some s → s.isLive e.now = true → ∃ f n, e.Awaits id s f n ∧
        (n.isAction = true → ∀ expiry,
          e.now.afterSeconds? e.settings.sessionTimeout = some expiry →
            e.Calls [e.callAt s n input expiry] after.2 ∧
              e.RoutedBy s f n input expiry after.1) ∧
        (n.isAction = false ∨ e.now.afterSeconds? e.settings.sessionTimeout = none →
          e.Abstains after.2)) ∧
      ((∀ s, e.store.get? id = some s → s.isLive e.now = false) → e.Abstains after.2) ∧
      (∀ c, e.Abstains ((createSession c).start e).2) ∧
      (∀ reason, e.Abstains ((terminateSession id reason).start e).2) ∧
      (∀ now, e.Abstains ((expireSession id now).start e).2) ∧
      ∀ retention now, e.Abstains ((sweep retention now).start e).2 := by
  intro e after
  obtain ⟨L, h⟩ := hw.sound
  refine ⟨fun s hget hlive => ?_, fun hnone => Engine.abstains_processInput hnone input,
    fun c => abstaining_createSession c e, fun reason => abstaining_terminateSession id reason e,
    fun now => abstaining_expireSession id now e,
    fun retention now => abstaining_sweep retention now e⟩
  obtain ⟨n, ha⟩ := h.engine.awaits hget hlive
  exact ⟨L.pin id, n, ha, fun hn expiry htime =>
    ⟨ha.calls_processInput h.engine.replaced htime hn input, h.engine.routedBy ha htime hn input⟩,
    fun hnot => ha.abstains_processInput hnot input⟩

end Service

/-- Where a bill is paid. -/
def Node.bill : Node := ⟨"pay", "Pay?", .payment ⟨some "paid", none⟩ .zero "GHS"⟩

/-- Whoever has paid is asked for a tip, which is paid as well. -/
def Flow.billing : Flow where
  id := "billing"
  name := none
  description := none
  version := 1
  startNode := "pay"
  nodes := .ofList [
    .bill,
    ⟨"paid", "", .conditional ⟨"pay_status", .equals, "success"⟩ ⟨some "tip", none⟩ none⟩,
    ⟨"tip", "A tip?", .payment ⟨none, none⟩ .zero "GHS"⟩]
  defaults := .empty
  one_le_version := one_le_firstVersion

theorem Engine.Awaits.eq_bill (ha : e.Awaits id s f n) (hnode : s.currentNode = some "pay")
    (hpinned : e.registry.version? s.flowId s.flowVersion = some .billing) : n = .bill := by
  cases ha.pinned.symm.trans hpinned
  exact ha.node_eq hnode (by decide +kernel)

namespace Service

/-- A service with that flow where a session was started. -/
def billing (settings : Settings) : Service :=
  ((fresh settings none (some (.simulated true)) ⟨0, Instant.zero_inRange⟩).perform
    (.publish .billing)).perform (.create ⟨"billing", "555", "*1#"⟩)

theorem reachable_billing (settings : Settings) : (billing settings).Reachable :=
  ((Reachable.fresh ..).step (.perform _ (.publish .billing))).step
    (.perform _ (.create ⟨"billing", "555", "*1#"⟩))

/-- The input pays the bill.  The turn goes on to the tip, which is not paid yet. -/
theorem one_call_billing :
    (billing .standard).Reachable ∧ ∃ s, (billing .standard).engine.store.get? (sessionId 1) = some s ∧
      s.isLive (billing .standard).engine.now = true ∧ ∃ shown e',
        (processInput (sessionId 1) "").start (billing .standard).engine = (.ok shown, e') ∧
          shown.node = some "tip" ∧ e'.requests.map (·.node.id) = ["pay"] ∧
          e'.metrics.count (.actions .payment true) = 1 ∧
          e'.metrics.count (.actions .payment false) = 0 := by
  have hstored : ((billing .standard).engine.store.get? (sessionId 1)).any (fun s =>
      s.isLive (billing .standard).engine.now && decide (s.currentNode = some "pay") &&
        decide ((billing .standard).engine.registry.version? s.flowId s.flowVersion =
          some .billing)) = true := by decide +kernel
  have htime : ((billing .standard).engine.now.afterSeconds?
    (billing .standard).engine.settings.sessionTimeout).isSome = true := by decide +kernel
  have hshown : ((processInput (sessionId 1) "").start (billing .standard).engine).1.toOption.any
      (fun shown => decide (shown.node = some "tip")) = true := by decide +kernel
  have hrequests : (billing .standard).engine.requests.isEmpty = true := by decide +kernel
  have hcount : ∀ succeeded, (billing .standard).engine.metrics.count
      (.actions .payment succeeded) = 0 := by decide +kernel
  have hx : (billing .standard).engine.executor = some (.simulated true) := rfl
  obtain ⟨s, hget, hs⟩ := (Option.any_eq_true _ _).1 hstored
  simp only [Bool.and_eq_true, decide_eq_true_eq] at hs
  obtain ⟨⟨hlive, hnode⟩, hpinned⟩ := hs
  obtain ⟨expiry, hexpiry⟩ := Option.isSome_iff_exists.1 htime
  obtain ⟨hinputs, -⟩ := (reachable_billing .standard).one_call (sessionId 1) ""
  obtain ⟨f, n, ha, hcall, -⟩ := hinputs s hget hlive
  cases ha.eq_bill hnode hpinned
  obtain ⟨hcalls, -⟩ := hcall rfl expiry hexpiry
  have hsucceeded : ((billing .standard).engine.callAt s .bill "" expiry).succeeded = true := by
    rw [Engine.callAt, Engine.resultAt, Engine.resultFor, hx]
    rfl
  cases hstart : (processInput (sessionId 1) "").start (billing .standard).engine with
  | mk r e' =>
      rw [hstart] at hshown hcalls
      obtain ⟨shown, rfl, hshown⟩ := any_toOption_iff.1 hshown
      refine ⟨reachable_billing _, s, hget, hlive, shown, e', rfl, of_decide_eq_true hshown, ?_, ?_, ?_⟩
      · rw [hcalls.asked, hx, List.isEmpty_iff.1 hrequests]
        rfl
      · rw [hcalls.counted, hcount, List.countP_singleton, ActionCall.isCounted, hsucceeded]
        rfl
      · rw [hcalls.counted, hcount, List.countP_singleton, ActionCall.isCounted, hsucceeded]
        rfl

/-- A second later, when no session can be renewed any more. -/
def billingLate : Service :=
  (billing .endless).perform (.turnClock ⟨1000000, Instant.second_inRange⟩)

/-- The session is live and rests at a node with an action, but an input to it fails and
makes no call. -/
theorem one_call_billing_late :
    billingLate.Reachable ∧ ∃ s f n, billingLate.engine.Awaits (sessionId 1) s f n ∧
      n.isAction = true ∧
      ((processInput (sessionId 1) "").start billingLate.engine).1 = .error .timeOutOfRange ∧
      billingLate.engine.Abstains ((processInput (sessionId 1) "").start billingLate.engine).2 := by
  have hreachable : billingLate.Reachable :=
    (reachable_billing .endless).step (.perform _ (.turnClock _))
  have hstored : (billingLate.engine.store.get? (sessionId 1)).any (fun s =>
      s.isLive billingLate.engine.now && decide (s.currentNode = some "pay") &&
        decide (billingLate.engine.registry.version? s.flowId s.flowVersion = some .billing)) =
      true := by decide +kernel
  have hlate : (billingLate.engine.now.afterSeconds?
    billingLate.engine.settings.sessionTimeout).isNone = true := by decide +kernel
  have htime := Option.isNone_iff_eq_none.1 hlate
  obtain ⟨s, hget, hs⟩ := (Option.any_eq_true _ _).1 hstored
  simp only [Bool.and_eq_true, decide_eq_true_eq] at hs
  obtain ⟨⟨hlive, hnode⟩, hpinned⟩ := hs
  obtain ⟨L, h⟩ := hreachable.sound
  obtain ⟨n, ha⟩ := h.engine.awaits hget hlive
  cases ha.eq_bill hnode hpinned
  obtain ⟨e', hstart, -⟩ := ha.start_processInput_of_late htime ""
  exact ⟨hreachable, s, _, _, ha, rfl, by rw [hstart], ha.abstains_processInput (.inr htime) ""⟩

end Service

end UssdFlows
