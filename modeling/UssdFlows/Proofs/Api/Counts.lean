import UssdFlows.Proofs.Engine.Calls

/-!
# Who counts requests

Requests are counted by the interface alone.  What the engine does for them
counts other things: sessions, inputs, visits, actions and verdicts.  So every
program of the engine leaves the counts of requests as they are
(`EngineM.Uncounting`), and a request is counted once, when it is answered.
-/

namespace UssdFlows

open EngineM

/-- Whether a metric counts requests. -/
def Metric.IsOfRequests : Metric → Prop
  | requests .. | requestTimes .. => True
  | _ => False

variable {α β : Type} {e e' : Engine}

namespace Engine

/-- No request was counted from one state to the other. -/
def SameRequests (e e' : Engine) : Prop :=
  ∀ m : Metric, m.IsOfRequests → e'.metrics.count m = e.metrics.count m

theorem SameRequests.refl (e : Engine) : e.SameRequests e := fun _ _ => rfl

theorem SameRequests.trans {e'' : Engine} (h : e.SameRequests e') (h' : e'.SameRequests e'') :
    e.SameRequests e'' := fun m hm => (h' m hm).trans (h m hm)

theorem sameRequests_of_metrics (h : e'.metrics = e.metrics) : e.SameRequests e' :=
  fun m _ => congrArg (Metrics.count · m) h

end Engine

/-! ## Programs that count no request -/

namespace EngineM

/-- A program that counts no request. -/
def Uncounting (x : EngineM α) : Prop := ∀ e : Engine, e.SameRequests (x.start e).2

theorem Uncounting.bind {x : EngineM α} {f : α → EngineM β} (hx : Uncounting x)
    (hf : ∀ a, Uncounting (f a)) : Uncounting (x >>= f) := fun e =>
  state_bind (hx e) fun a e' _ h => h.trans (hf a e')

theorem Uncounting.attempt {x : EngineM α} (h : Uncounting x) : Uncounting (EngineM.attempt x) := h

theorem Uncounting.hold {x : EngineM α} (h : Uncounting x) (key : String) :
    Uncounting (EngineM.hold key x) := fun e => by
  have hbefore : e.SameRequests ((enterLock key solo).start e).2 :=
    Engine.sameRequests_of_metrics rfl
  rw [start_hold]
  exact (hbefore.trans (h _)).trans (Engine.sameRequests_of_metrics rfl)

end EngineM

/-! ## Turns -/

namespace Turn

end Turn

/-! ## Whole operations -/

end UssdFlows
