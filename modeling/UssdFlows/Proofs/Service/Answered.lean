import UssdFlows.Proofs.Engine.Inputs
import UssdFlows.Proofs.Service.Certified

/-!
# Which inputs are answered

A live session is meant to answer every input, whatever the input is and
whatever its action comes to: what is wrong is shown, and the session goes on.
This file says exactly when it does (`Service.Reachable.input_answered_iff`):
always, unless the node refuses.  Menus, conditionals and end nodes never do.
An input node refuses whatever it accepts if its variable has a reserved name,
and an action node refuses a success whose data it cannot store.

Nothing else stands in the way.  A session whose time can be renewed is served
however the executor behaves, and no turn runs out of stages.
-/

namespace UssdFlows

open EngineM

namespace Service

/-- **Answers.**  In every state that a service can be in, an input to a live
session whose time can be renewed is answered exactly if the node where the
session rests does not refuse it; otherwise it fails in the handler of that
node. -/
theorem Reachable.input_answered_iff {w : Service} (hw : w.Reachable) {id : String} {s : Session}
    {expiry : Instant} (hget : w.engine.store.get? id = some s)
    (hlive : s.isLive w.engine.now = true)
    (htime : w.engine.now.afterSeconds? w.engine.settings.sessionTimeout = some expiry)
    (input : String) :
    ∃ n, w.engine.nodeAt? s = some n ∧
      ((∃ result, ((processInput id input).start w.engine).1 = .ok result) ↔
        ¬ n.Refuses input (w.engine.resultAt s n input expiry)) ∧
      ∀ err, ((processInput id input).start w.engine).1 = .error err →
        ∃ cause, err = .handler cause := by
  obtain ⟨L, h⟩ := hw.sound
  obtain ⟨n, ha⟩ := h.engine.awaits hget hlive
  refine ⟨n, ha.nodeAt?, processInput_ok_iff h.engine ha htime input, fun err herr => ?_⟩
  rcases processInput_cases h.engine ha htime input with
    ⟨-, cause, e', hstart, -⟩ | ⟨-, result, e', hstart, -⟩
  · rw [hstart] at herr
    cases herr
    exact ⟨cause, rfl⟩
  · rw [hstart] at herr
    cases herr

end Service

/-- A flow that asks for a name and calls it by a reserved name. -/
def Flow.naming : Flow where
  id := "naming"
  name := none
  description := none
  version := 1
  startNode := "who"
  nodes := .ofList [
    ⟨"who", "Your name?", .input ⟨"node_id", true, none⟩ (some "bye")⟩,
    ⟨"bye", "Thanks", .terminal⟩]
  defaults := .empty
  one_le_version := one_le_firstVersion

/-- A service where a session was started that asks for a name. -/
def Service.waiting : Service :=
  ((fresh .standard none none ⟨0, Instant.zero_inRange⟩).perform (.publish .naming)).perform
    (.create ⟨"naming", "555", "*1#"⟩)

theorem Service.reachable_waiting : waiting.Reachable :=
  ((Reachable.fresh ..).step (.perform _ (.publish .naming))).step
    (.perform _ (.create ⟨"naming", "555", "*1#"⟩))

/-- The session is live, but the name is not answered. -/
theorem Service.input_not_answered_waiting :
    ∃ s, waiting.engine.store.get? (sessionId 1) = some s ∧ s.isLive waiting.engine.now = true ∧
      (waiting.engine.now.afterSeconds? waiting.engine.settings.sessionTimeout).isSome = true ∧
      ¬ ∃ result, ((processInput (sessionId 1) "Ada").start waiting.engine).1 = .ok result := by
  have hstored : (waiting.engine.store.get? (sessionId 1)).any
      (fun s => s.isLive waiting.engine.now && decide (waiting.engine.nodeAt? s =
        some ⟨"who", "Your name?", .input ⟨"node_id", true, none⟩ (some "bye")⟩)) = true := by
    decide +kernel
  have htime : (waiting.engine.now.afterSeconds? waiting.engine.settings.sessionTimeout).isSome =
      true := by decide +kernel
  obtain ⟨s, hget, hs⟩ := (Option.any_eq_true _ _).1 hstored
  obtain ⟨expiry, hexpiry⟩ := Option.isSome_iff_exists.1 htime
  rw [Bool.and_eq_true, decide_eq_true_eq] at hs
  obtain ⟨n, hn, hiff, -⟩ := reachable_waiting.input_answered_iff hget hs.1 hexpiry "Ada"
  rw [hs.2, Option.some.injEq] at hn
  subst hn
  have hfilled : Text.strip "Ada" ≠ "" := by decide +kernel
  refine ⟨s, hget, hs.1, htime, fun hok => hiff.1 hok ⟨⟨fun _ => hfilled, nofun⟩, ?_⟩⟩
  exact Or.inr ⟨rfl, nofun⟩

end UssdFlows
