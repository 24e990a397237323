import UssdFlows.Proofs.Engine.Sweeps
import UssdFlows.Proofs.Service.Settlements

/-!
# What an input leaves alone

An input may change a session only so far.  Whose session it is, where its flow is
pinned, when it was started and why it was ended stays whatever happens
(`Session.SameWalk`).  If the input is not taken, be it that it is refused at the node,
rejected, or fails, the session also stays at its node with its variables, and is not
completed (`Session.Stays`); the one thing that may happen to it is that it has
expired.  If it is taken, the node where the session was says which variables change
(`Node.MayBind`): none for a menu, the one of its specification for an input node, and
those called after the node for an action.

That a turn which fails has not moved its session rests on the order of its stages: what
fails is the renewal of the time or the interpretation, and both come before any move.
Behind them nothing fails, and no conditional captures anything, so a turn of any length
stores no more than its first node has captured (`Engine.Sound.frame_processInput`).
-/

namespace UssdFlows

open EngineM

variable {L : Ledger} {others : String → Prop} {e e' : Engine} {id : String} {s s' : Session}
  {f : Flow} {n : Node} {input : String} {now expiry : Instant} {bindings bindings' : Dict String}

/-! ## Variables -/

/-- What an input that is taken at a node may make of the variables. -/
def Node.MayBind (n : Node) (input : String) (bindings bindings' : Dict String) : Prop :=
  match n.behaviour with
  | .input spec _ => bindings' = bindings.put (spec.variableName, input)
  | .payment .. | .api .. =>
    ∀ name, (∀ key, name ≠ n.id ++ "_" ++ key) → bindings'.find? name = bindings.find? name
  | _ => bindings' = bindings

/-- The variables of an action are called after its node. -/
theorem ActionResult.exists_key_of_captured {nodeId name : String} {r : ActionResult}
    (h : (r.captured nodeId).contains name = true) : ∃ key, name = nodeId ++ "_" ++ key := by
  rcases contains_captured_iff.1 h with rfl | ⟨e, -, -, rfl⟩
  · exact ⟨"status", by rw [String.append_assoc]; rfl⟩
  · exact ⟨e.1, rfl⟩

namespace Node

/-- What a node captures is what it may bind. -/
theorem mayBind_captures (n : Node) (input : String) (result : ActionResult)
    (bindings : Dict String) :
    n.MayBind input bindings (bindings.putAll (n.captures input result).items) := by
  have haction : ∀ name, (∀ key, name ≠ n.id ++ "_" ++ key) →
      (bindings.putAll (result.captured n.id).items).find? name = bindings.find? name := by
    intro name hname
    refine KeyedList.find?_putAll_of_not_mem fun hmem => ?_
    obtain ⟨key, hkey⟩ := ActionResult.exists_key_of_captured (KeyedList.contains_iff.2 hmem)
    exact hname key hkey
  cases hb : n.behaviour with
  | payment | api =>
      rw [MayBind, captures, hb]
      exact haction
  | _ =>
      rw [MayBind, captures, hb]
      rfl

theorem mayBind_of_interpret {result : ActionResult} {o : Outcome}
    (h : n.interpret bindings input result = .ok o) (hmove : ∀ message, o.move ≠ .stay message) :
    n.MayBind input bindings (bindings.putAll o.captured.items) := by
  rw [(passesOn_of_interpret h hmove).captured]
  exact n.mayBind_captures input result bindings

end Node

/-! ## The session -/

namespace Session

/-- Whose session it is, where its flow is pinned, when it was started and why it was
ended. -/
structure SameWalk (s s' : Session) : Prop where
  id : s'.id = s.id
  flowId : s'.flowId = s.flowId
  flowVersion : s'.flowVersion = s.flowVersion
  phoneNumber : s'.phoneNumber = s.phoneNumber
  ussdCode : s'.ussdCode = s.ussdCode
  startedAt : s'.startedAt = s.startedAt
  terminationReason : s'.terminationReason = s.terminationReason

/-- The session was not moved, and nothing was stored in it; it has at most expired. -/
structure Stays (now : Instant) (s s' : Session) : Prop where
  node : s'.currentNode = s.currentNode
  bindings : s'.bindings = s.bindings
  completedAt : s'.completedAt = s.completedAt
  status : s'.status = if s.isDue now then .expired else s.status

theorem SameWalk.refl (s : Session) : s.SameWalk s := ⟨rfl, rfl, rfl, rfl, rfl, rfl, rfl⟩

theorem SameWalk.trans {s'' : Session} (h : s.SameWalk s') (h' : s'.SameWalk s'') :
    s.SameWalk s'' :=
  ⟨h'.id.trans h.id, h'.flowId.trans h.flowId, h'.flowVersion.trans h.flowVersion,
    h'.phoneNumber.trans h.phoneNumber, h'.ussdCode.trans h.ussdCode,
    h'.startedAt.trans h.startedAt, h'.terminationReason.trans h.terminationReason⟩

/-- A session that is not due stays if its node, its variables and its status do. -/
theorem Stays.of_not_due (hdue : s.isDue now = false) (hnode : s'.currentNode = s.currentNode)
    (hbindings : s'.bindings = s.bindings) (hcompleted : s'.completedAt = s.completedAt)
    (hstatus : s'.status = s.status) : s.Stays now s' :=
  ⟨hnode, hbindings, hcompleted, by rw [hstatus, hdue, if_neg Bool.false_ne_true]⟩

end Session

namespace Ending

theorem sameWalk (ending : Ending) (now : Instant) (s : Session) :
    s.SameWalk (ending.session now s) := by
  cases ending <;> exact ⟨rfl, rfl, rfl, rfl, rfl, rfl, rfl⟩

theorem bindings_session (ending : Ending) (now : Instant) (s : Session) :
    (ending.session now s).bindings = s.bindings := by
  cases ending <;> rfl

end Ending

namespace Flow

variable {o : Outcome} {path : List Node} {ending : Ending}

/-- An outcome is either an error, which changes nothing, or what was captured is stored. -/
theorem Follows.cases (h : f.Follows n bindings o bindings' path ending) :
    (bindings' = bindings ∧ ∃ message, ending = .refused n message) ∨
      (bindings' = bindings.putAll o.captured.items ∧ (∀ message, o.move ≠ .stay message) ∧
        ending.error? = none) := by
  cases h with
  | stays hmove => exact Or.inl ⟨rfl, _, rfl⟩
  | ends hmove => exact Or.inr ⟨rfl, by rw [hmove]; nofun, rfl⟩
  | goes hmove hm hsettles => exact Or.inr ⟨rfl, by rw [hmove]; nofun, hsettles.error?_eq_none⟩

end Flow

/-! ## Inputs -/

/-- What is so of a session after an input to it, and of what was shown. -/
structure Engine.Frame (e : Engine) (id : String) (s : Session) (input : String)
    (r : Except EngineError Navigation) (s' : Session) : Prop where
  walk : s.SameWalk s'
  stays : (∀ shown, r = .ok shown → shown.error ≠ none) → s.Stays e.now s'
  binds : ∀ shown, r = .ok shown → shown.error = none →
    ∃ f n, e.Awaits id s f n ∧ n.MayBind input s.bindings s'.bindings

namespace Engine

/-- An input that fails leaves the session where it stays. -/
theorem frame_of_error {err : EngineError} (hwalk : s.SameWalk s') (hstays : s.Stays e.now s') :
    e.Frame id s input (.error err) s' :=
  ⟨hwalk, fun _ => hstays, nofun⟩

/-- An input to a session that awaits it. -/
theorem Sound.frame_of_awaits (h : e.Sound L others) (ha : e.Awaits id s (L.pin id) n)
    (input : String) : ∃ r e' s', (processInput id input).start e = (r, e') ∧
      e'.store.get? id = some s' ∧ e.Frame id s input r s' := by
  have hdue := Session.isDue_of_inTime ha.inTime
  cases htime : e.now.afterSeconds? e.settings.sessionTimeout with
  | none =>
      obtain ⟨e', hstart, hstored, -⟩ := ha.start_processInput_of_late htime input
      exact ⟨_, e', _, hstart, hstored,
        frame_of_error ⟨rfl, rfl, rfl, rfl, rfl, rfl, rfl⟩ (.of_not_due hdue rfl rfl rfl rfl)⟩
  | some expiry =>
      cases ho : n.interpret s.bindings input (e.resultAt s n input expiry) with
      | error err =>
          rcases processInput_cases h ha htime input with
            ⟨-, err', e', hstart, -, hstore, -⟩ | ⟨haccepts, -⟩
          · refine ⟨_, e', s.receivedAt input e.now expiry, hstart, ?_,
              frame_of_error ⟨rfl, rfl, rfl, rfl, rfl, rfl, rfl⟩ (.of_not_due hdue rfl rfl rfl rfl)⟩
            rw [hstore, get?_keep]
            exact if_pos ha.sameId
          · exact absurd (Node.interpret_error_iff.1 ⟨err, ho⟩) haccepts
      | ok o =>
          have hwf := (h.stored ha.stored).2.2.1
          obtain ⟨bindings, path, ending, hfollows⟩ := hwf.exists_follows ha.found ho
          obtain ⟨e', hstart, hstored, -⟩ := ha.start_processInput hwf h.replaced htime ho hfollows
          refine ⟨_, e', _, hstart, hstored, ?_⟩
          have hreceived : s.SameWalk { s.receivedAt input e.now expiry with bindings } :=
            ⟨rfl, rfl, rfl, rfl, rfl, rfl, rfl⟩
          have hwalk := hreceived.trans (ending.sameWalk e.now _)
          rcases hfollows.cases with ⟨rfl, message, rfl⟩ | ⟨rfl, hmove, hnone⟩
          · exact ⟨hwalk, fun _ => .of_not_due hdue rfl rfl rfl rfl, fun shown hshown hnone => by
              cases hshown
              cases hnone⟩
          · refine ⟨hwalk, fun hall => absurd hnone (hall _ rfl), fun _ _ _ => ⟨_, n, ha, ?_⟩⟩
            rw [ending.bindings_session]
            exact Node.mayBind_of_interpret ho hmove

/-- Whatever the session is when it receives an input. -/
theorem Sound.frame_processInput (h : e.Sound L others) (hget : e.store.get? id = some s)
    (input : String) : ∃ r e' s', (processInput id input).start e = (r, e') ∧
      e'.store.get? id = some s' ∧ e.Frame id s input r s' := by
  cases ha : s.isActive with
  | false =>
      obtain ⟨e', hstart, h'⟩ := start_processInput_of_over hget ha input
      have hdue : s.isDue e.now = false := Session.isDue_of_not_isActive ha
      exact ⟨_, e', s, hstart, h'.alike.store ▸ hget,
        frame_of_error (.refl s) (.of_not_due hdue rfl rfl rfl rfl)⟩
  | true =>
      cases hx : s.isPastExpiry e.now with
      | true =>
          obtain ⟨e₁, e', h₁, h', hstart⟩ := start_processInput_of_lapsed hget ha hx input
          have hdue : s.isDue e.now = true := Session.isDue_of_isPastExpiry ha hx
          have hget₁ : e₁.store.get? id = some s := h₁.alike.store ▸ hget
          refine ⟨_, e', s.expiredAt e.now, hstart, h'.alike.store ▸ get?_lapsed_self hget₁ e.now,
            frame_of_error ⟨rfl, rfl, rfl, rfl, rfl, rfl, rfl⟩ ⟨rfl, rfl, rfl, ?_⟩⟩
          rw [hdue]
          rfl
      | false =>
          obtain ⟨n, hn⟩ := h.awaits hget (Session.isLive_of_inTime ha hx)
          exact h.frame_of_awaits hn input

end Engine

/-- **Frames.**  In every state of a service an input to a stored session leaves it
stored, and leaves alone whose session it is, where its flow is pinned, when it was
started and why it was ended.  If the input fails or is not accepted, the session stays
at its node with its variables and is not completed, and its status changes only if it
was active and past its expiry, and then to expired.  If the input is accepted, no
variables change but those that the node where the session was may bind. -/
theorem Service.Reachable.input_frame {w : Service} (hw : w.Reachable)
    (hget : w.engine.store.get? id = some s) (input : String) :
    ∃ r e' s', (processInput id input).start w.engine = (r, e') ∧
      e'.store.get? id = some s' ∧ w.engine.Frame id s input r s' := by
  obtain ⟨L, h⟩ := hw.sound
  exact h.engine.frame_processInput hget input

/-- Who gives no name stays where the name is asked for, and who gives one has that name
stored. -/
theorem Service.input_frame_sorting :
    sorting.Reachable ∧ ∃ s, sorting.engine.store.get? (sessionId 1) = some s ∧
      (∃ r e' s', (processInput (sessionId 1) "").start sorting.engine = (r, e') ∧
        e'.store.get? (sessionId 1) = some s' ∧ s'.currentNode = some "ask" ∧
        s'.bindings = s.bindings) ∧
      ∃ r e' s', (processInput (sessionId 1) "Ada").start sorting.engine = (r, e') ∧
        e'.store.get? (sessionId 1) = some s' ∧
        s'.bindings = s.bindings.put ("name", "Ada") := by
  have hreachable : sorting.Reachable :=
    ((Reachable.fresh ..).step (.perform _ (.publish .sorting))).step
      (.perform _ (.create ⟨"sorting", "555", "*1#"⟩))
  have hstored : (sorting.engine.store.get? (sessionId 1)).any (fun s =>
      decide (s.currentNode = some "ask") &&
        decide (sorting.engine.registry.version? s.flowId s.flowVersion = some .sorting)) =
      true := by decide +kernel
  have hblank : ((processInput (sessionId 1) "").start sorting.engine).1.toOption.all
      (fun shown => decide (shown.error ≠ none)) = true := by decide +kernel
  have htaken : ((processInput (sessionId 1) "Ada").start sorting.engine).1.toOption.any
      (fun shown => decide (shown.error = none)) = true := by decide +kernel
  obtain ⟨s, hget, hs⟩ := (Option.any_eq_true _ _).1 hstored
  rw [Bool.and_eq_true, decide_eq_true_eq, decide_eq_true_eq] at hs
  obtain ⟨r, e', s', hstart, hget', hframe⟩ := hreachable.input_frame hget ""
  obtain ⟨r₁, e₁, s₁, hstart₁, hget₁, hframe₁⟩ := hreachable.input_frame hget "Ada"
  rw [hstart] at hblank
  rw [hstart₁] at htaken
  refine ⟨hreachable, s, hget, ⟨r, e', s', hstart, hget', ?_⟩, r₁, e₁, s₁, hstart₁, hget₁, ?_⟩
  · have hstays := hframe.stays fun shown hr => by
      subst hr
      exact of_decide_eq_true hblank
    exact ⟨hstays.node.trans hs.1, hstays.bindings⟩
  · obtain ⟨shown, hshown, hnone⟩ := any_toOption_iff.1 htaken
    obtain ⟨f, n, ha, hbinds⟩ := hframe₁.binds shown hshown (of_decide_eq_true hnone)
    cases ha.pinned.symm.trans hs.2
    have hask : Flow.sorting.node? "ask" =
        some ⟨"ask", "Your name?", .input ⟨"name", true, none⟩ (some "check")⟩ := by decide +kernel
    cases ha.node_eq hs.1 hask
    exact hbinds

end UssdFlows
