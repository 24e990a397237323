import UssdFlows.Proofs.Engine.Turns

/-!
# Smooth turns

Once the input of a turn has been interpreted, only conditionals are left to be
interpreted in it.  Such a turn is *smooth* (`Turn.IsSmooth`): it has nothing
asked of the executor, and it succeeds if its session is stored and active
(`run_smooth`).  The turn that settles a new session is smooth from the start.
-/

namespace UssdFlows

open EngineM

/-- Conditionals have no action. -/
theorem Node.not_isAction_of_isTransient {n : Node} (h : n.isTransient = true) :
    n.isAction = false := by
  obtain ⟨id, text, b⟩ := n
  cases b with
  | conditional c b next => rfl
  | _ => cases h

namespace Turn

variable {L : Ledger} {others : String → Prop} {e e' : Engine} {t t' : Turn} {σ : Stage}
  {s : Session}

/-- The turn has no input before it, and no node but a conditional to interpret. -/
def IsSmooth (t : Turn) (σ : Stage) : Prop :=
  σ ≠ .recordInput ∧ (σ = .dispatch → t.node.isTransient = true)

/-- Without an input a turn is smooth from the start. -/
theorem isSmooth_entry (h : t.input = none) : t.IsSmooth t.entry := by
  rw [entry, h, if_neg (by exact Bool.false_ne_true)]
  by_cases ht : t.node.isTransient = true
  · rw [if_pos ht]
    exact ⟨nofun, fun _ => ht⟩
  · rw [if_neg ht]
    exact ⟨nofun, nofun⟩

/-- What follows an interpretation or a move is smooth. -/
theorem isSmooth_afterDispatch (t : Turn) : t.IsSmooth t.afterDispatch := by
  rw [afterDispatch]
  repeat' split
  all_goals exact ⟨fun hσ => Stage.noConfusion hσ, fun hσ => Stage.noConfusion hσ⟩

theorem isSmooth_afterAdvance (t : Turn) : t.IsSmooth t.afterAdvance := by
  rw [afterAdvance]
  by_cases ht : t.node.isTransient = true
  · rw [if_pos ht]
    exact ⟨nofun, fun _ => ht⟩
  · rw [if_neg ht]
    exact ⟨nofun, nofun⟩

theorem isSmooth_next {σ' : Stage} (hσ : σ ≠ .recordInput) (h : t.next? σ = some σ') :
    t.IsSmooth σ' := by
  cases σ with
  | recordInput => exact absurd rfl hσ
  | dispatch =>
      cases h
      exact t.isSmooth_afterDispatch
  | advance =>
      cases h
      exact t.isSmooth_afterAdvance
  | _ => cases h

/-- At a conditional the engine stays as it is. -/
theorem start_dispatch_of_isTransient (h : e.store.get? t.sessionId = some s)
    (hr : e.replaced = []) (ht : t.node.isTransient = true) :
    ∃ o, t.dispatch.start e = (.ok (t.heard o), e) := by
  obtain ⟨target, metadata, ho⟩ := Node.interpret_of_isTransient ht s.bindings t.givenInput
    (e.resultFor ⟨t.node, s⟩)
  have hacted : e.acted t.node s = e := by
    rw [Engine.acted, Node.not_isAction_of_isTransient ht, if_neg Bool.false_ne_true]
  refine ⟨⟨.along target, .empty, metadata⟩, ?_⟩
  rw [start_dispatch h hr, ho, hacted]

/-- A stage of a smooth turn for a session that is missing. -/
theorem requests_perform_of_missing (hf : t.Fits L e.nextSession σ)
    (hget : e.store.get? t.sessionId = none) : ((t.perform σ).start e).2.requests = e.requests := by
  cases σ with
  | recordInput => exact congrArg (·.2.requests) (start_recordInput_of_missing hget)
  | dispatch => exact congrArg (·.2.requests) (start_dispatch_of_missing hget)
  | advance =>
      obtain ⟨o, target, ho, htarget, hmem⟩ := hf.leads rfl
      obtain ⟨n, hn, -, -, -⟩ := hf.target hmem
      exact congrArg (·.2.requests) (start_advance_of_missing hget ho htarget hn)
  | complete =>
      obtain ⟨o, ho⟩ := hf.ends rfl
      exact congrArg (·.2.requests) (start_complete_of_missing hget ho)
  | reprompt => exact congrArg (·.2.requests) (start_reprompt_of_missing hget)
  | respond => exact congrArg (·.2.requests) (start_respond_of_missing hget)

/-- A stage of a smooth turn leaves the executor alone, and succeeds for a session
that is stored and active, which stays so unless it is completed. -/
theorem perform_smooth (hr : e.replaced = []) (hf : t.Fits L e.nextSession σ)
    (hsmooth : t.IsSmooth σ) (hget : e.store.get? t.sessionId = some s) :
    ((t.perform σ).start e).2.requests = e.requests ∧
      (s.isActive = true → ∃ t' e' s', (t.perform σ).start e = (.ok t', e') ∧
        e'.store.get? t.sessionId = some s' ∧ s'.expiresAt = s.expiresAt ∧
          (σ ≠ .complete → s'.isActive = true) ∧ (σ = .complete → s'.status = .completed)) := by
  have hid : s.id = t.sessionId := KeyedList.key_of_find? hget
  cases σ with
  | recordInput => exact absurd rfl hsmooth.1
  | dispatch =>
      obtain ⟨o, hstart⟩ := start_dispatch_of_isTransient hget hr (hsmooth.2 rfl)
      rw [perform, hstart]
      exact ⟨rfl, fun ha => ⟨_, _, s, rfl, hget, rfl, fun _ => ha, nofun⟩⟩
  | advance =>
      obtain ⟨o, target, ho, htarget, hmem⟩ := hf.leads rfl
      obtain ⟨n, hn, -, -, -⟩ := hf.target hmem
      rw [perform, start_advance hget ho htarget hn]
      exact ⟨rfl, fun ha => ⟨_, _, (s.movedTo n e.now).capture o.captured, rfl,
        Engine.get?_moved hid o, rfl, fun _ => ha, nofun⟩⟩
  | complete =>
      obtain ⟨o, ho⟩ := hf.ends rfl
      cases ha : s.isActive with
      | true =>
          rw [perform, start_complete hget ho ha]
          exact ⟨rfl, fun _ => ⟨_, _, (s.capture o.captured).finishedAt e.now, rfl,
            Engine.get?_finished hid, rfl, fun hne => absurd rfl hne, fun _ => rfl⟩⟩
      | false =>
          rw [perform, start_complete_of_not_isActive hget ho ha]
          exact ⟨rfl, nofun⟩
  | reprompt =>
      rw [perform, start_reprompt hget]
      exact ⟨rfl, fun ha => ⟨_, _, s, rfl, hget, rfl, fun _ => ha, nofun⟩⟩
  | respond =>
      rw [perform, start_respond hget]
      exact ⟨rfl, fun ha => ⟨_, _, s, rfl, hget, rfl, fun _ => ha, nofun⟩⟩

theorem requests_perform (hr : e.replaced = []) (hf : t.Fits L e.nextSession σ)
    (hsmooth : t.IsSmooth σ) : ((t.perform σ).start e).2.requests = e.requests := by
  cases hget : e.store.get? t.sessionId with
  | none => exact requests_perform_of_missing hf hget
  | some s => exact (perform_smooth hr hf hsmooth hget).1

/-- **Smooth turns.**  A smooth turn leaves the executor alone, and succeeds for a
session that is stored and active; then the session is still active, or it is
completed, and its time is what it was. -/
theorem run_smooth {limit : Nat} (h : e.Sound L (t.Moving others σ))
    (hf : t.Fits L e.nextSession σ) (hcost : t.cost σ ≤ limit) (hsmooth : t.IsSmooth σ) :
    ((run limit σ t).start e).2.requests = e.requests ∧
      ∀ s, e.store.get? t.sessionId = some s → s.isActive = true →
        ∃ t' e' s', (run limit σ t).start e = (.ok t', e') ∧ t'.sessionId = t.sessionId ∧
          e'.store.get? t.sessionId = some s' ∧ s'.expiresAt = s.expiresAt ∧
            (s'.isActive = true ∨ s'.status = .completed) := by
  induction limit generalizing e t σ with
  | zero => exact absurd (t.cost_pos σ) (by omega)
  | succ limit ih =>
      obtain ⟨-, hleaves⟩ := leaves_perform h hf
      have hrequests := requests_perform h.replaced hf hsmooth
      have hstored := fun s hget => (perform_smooth (s := s) h.replaced hf hsmooth hget).2
      rw [run]
      cases hp : (t.perform σ).start e with
      | mk r e' =>
          rw [hp] at hleaves hrequests hstored
          cases r with
          | error err =>
              rw [start_bind_of_error hp]
              refine ⟨hrequests, fun s hget ha => ?_⟩
              obtain ⟨t', e'', s', heq, -⟩ := hstored s hget ha
              cases heq
          | ok t' =>
              obtain ⟨hid, hready⟩ := hleaves
              rw [start_bind_of_ok hp]
              cases hn : t'.next? σ with
              | none =>
                  refine ⟨hrequests, fun s hget ha => ?_⟩
                  obtain ⟨t'', e'', s', heq, hget', htime, hactive, hdone⟩ := hstored s hget ha
                  cases heq
                  refine ⟨t', e', s', rfl, hid, hget', htime, ?_⟩
                  by_cases hσ : σ = .complete
                  · exact Or.inr (hdone hσ)
                  · exact Or.inl (hactive hσ)
              | some σ' =>
                  rw [hn] at hready
                  obtain ⟨hsound, hfits, hless⟩ := hready
                  obtain ⟨hreq, hrest⟩ := ih hsound hfits (by omega) (isSmooth_next hsmooth.1 hn)
                  refine ⟨hreq.trans hrequests, fun s hget ha => ?_⟩
                  obtain ⟨t'', e'', s', heq, hget', htime, hactive, -⟩ := hstored s hget ha
                  cases heq
                  have hne : σ ≠ .complete := by
                    rintro rfl
                    cases hn
                  rw [hid] at hrest
                  obtain ⟨t'', e'', s'', hrun, hid', hget'', htime', hstands⟩ :=
                    hrest s' hget' (hactive hne)
                  exact ⟨t'', e'', s'', hrun, hid', hget'', htime'.trans htime, hstands⟩

end Turn

end UssdFlows
