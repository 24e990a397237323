import Mathlib.Data.Set.Insert
import UssdFlows.Proofs.Engine.Inputs

/-!
# Nodes that are left for good

Once a session has moved on from a node, or is over, that node may be put down
as left (`Ledger.leaving`): the engine stays sound, since every node the session
can still reach lies beyond.  And a node that a session has left it never rests
at again, since flows have no cycles (`Engine.Sound.not_left`).

The point of it is `processInput_of_along`: when a node leads an input along an
edge, the session leaves the node for good.  So it does when the action of the
node has succeeded, and the node does not refuse the success
(`sound_processInput_of_succeeded`).
-/

namespace UssdFlows

open EngineM
open Relation (TransGen)

variable {L : Ledger} {others moving : String → Prop} {e e' : Engine} {id node : String}
  {s : Session}

/-! ## Putting a node down as left -/

namespace Ledger

/-- The ledger with one more node that a session has left. -/
def leaving (L : Ledger) (id node : String) : Ledger :=
  { L with behind := fun i => if i = id then insert node (L.behind i) else L.behind i }

theorem behind_leaving (L : Ledger) (id node i : String) : (L.leaving id node).behind i =
    if i = id then insert node (L.behind i) else L.behind i := rfl

theorem mem_leaving (L : Ledger) (id node : String) : node ∈ (L.leaving id node).behind id := by
  rw [behind_leaving, if_pos rfl]
  exact Set.mem_insert ..

theorem behind_subset_leaving (L : Ledger) (id node i : String) :
    L.behind i ⊆ (L.leaving id node).behind i := by
  rw [behind_leaving]
  split
  · exact Set.subset_insert ..
  · exact subset_rfl

/-- A node lies beyond one more node that was left. -/
theorem Beyond.leaving {i a : String} (h : L.Beyond i a)
    (hleft : i = id → TransGen (L.pin id).Edge node a) : (L.leaving id node).Beyond i a := by
  intro p hp
  by_cases hi : i = id
  · subst hi
    rw [behind_leaving, if_pos rfl] at hp
    rcases hp with rfl | hp
    · exact hleft rfl
    · exact h p hp
  · rw [behind_leaving, if_neg hi] at hp
    exact h p hp

end Ledger

namespace Engine.Sound

/-- A node may be put down as left if the session, unless it is over, rests
beyond it. -/
theorem leaving (h : e.Sound L moving) (hid : IsIssued e.nextSession id)
    (hleft : ∀ s a, e.store.get? id = some s → s.isActive = true → s.currentNode = some a →
      TransGen (L.pin id).Edge node a) : e.Sound (L.leaving id node) moving where
  replaced := h.replaced
  registry := h.registry
  placed := fun i s hget => by
    obtain ⟨hissued, hpinned, n, hnode, hn, hactive⟩ := h.placed i s hget
    have hkey : s.id = i := KeyedList.key_of_find? hget
    refine ⟨hissued, hpinned, n, hnode, hn, fun ha => ⟨?_, (hactive ha).2⟩⟩
    refine (hactive ha).1.leaving fun hs => hleft s n.id ?_ ha hnode
    rw [← hs, hkey]
    exact hget
  fresh := fun i hi => by
    have hne : i ≠ id := fun heq => hi (heq ▸ hid)
    rw [Ledger.behind_leaving, if_neg hne]
    exact h.fresh i hi

/-- **No way back.**  A live session does not rest at a node that it has left. -/
theorem not_left (h : e.Sound L moving) (hget : e.store.get? id = some s)
    (ha : s.isActive = true) (hnode : s.currentNode = some node) : node ∉ L.behind id := by
  intro hleft
  obtain ⟨rfl, -, hwf, -⟩ := h.stored hget
  obtain ⟨n, hn, -, hactive⟩ := (h.placed _ s hget).resting
  rw [hnode, Option.some.injEq] at hn
  subst hn
  exact hwf.acyclic n.id ((hactive ha).1 n.id hleft)

end Engine.Sound

/-! ## Turns that leave a node -/

namespace Turn

variable {t : Turn} {σ : Stage}

theorem Fits.leaving {next : Nat} (h : t.Fits L next σ)
    (hleft : TransGen (L.pin t.sessionId).Edge node t.node.id) :
    t.Fits (L.leaving t.sessionId node) next σ where
  issued := h.issued
  flow := h.flow
  wellFormed := h.wellFormed
  node := h.node
  beyond := h.beyond.leaving fun _ => hleft
  leads := h.leads
  ends := h.ends

/-- A stage took the session, unless it is over, and its turn, unless nothing comes
next, beyond the node where the turn stood. -/
def Departs (L : Ledger) (t : Turn) (σ : Stage) (r : Except EngineError Turn) (e : Engine) : Prop :=
  (∀ s a, e.store.get? t.sessionId = some s → s.isActive = true → s.currentNode = some a →
    TransGen (L.pin t.sessionId).Edge t.node.id a) ∧
  ∀ t' σ', r = .ok t' → t'.next? σ = some σ' →
    TransGen (L.pin t.sessionId).Edge t.node.id t'.node.id

theorem departs_missing (hget : e.store.get? t.sessionId = none) (err : EngineError) :
    t.Departs L σ (.error err) e := by
  refine ⟨fun s a hs => ?_, fun t' σ' ht' => ?_⟩
  · rw [hget] at hs
    cases hs
  · cases ht'

theorem departs_advance (hf : t.Fits L e.nextSession .advance) :
    t.Departs L .advance (t.advance.start e).1 (t.advance.start e).2 := by
  obtain ⟨o, target, ho, htarget, hmem⟩ := hf.leads rfl
  obtain ⟨n, hn, rfl, hedge, -⟩ := hf.target hmem
  rw [hf.flow] at hedge
  cases hget : e.store.get? t.sessionId with
  | none =>
      rw [start_advance_of_missing hget ho htarget hn]
      exact departs_missing hget _
  | some s =>
      have hid : s.id = t.sessionId := KeyedList.key_of_find? hget
      rw [start_advance hget ho htarget hn]
      refine ⟨fun s' a hs' _ hnode => ?_, fun t' σ' ht' _ => ?_⟩
      · rw [Engine.get?_moved hid, Option.some.injEq] at hs'
        subst hs'
        cases hnode
        exact .single hedge
      · cases ht'
        exact .single hedge

theorem departs_complete (hf : t.Fits L e.nextSession .complete) :
    t.Departs L .complete (t.complete.start e).1 (t.complete.start e).2 := by
  obtain ⟨o, ho⟩ := hf.ends rfl
  cases hget : e.store.get? t.sessionId with
  | none =>
      rw [start_complete_of_missing hget ho]
      exact departs_missing hget _
  | some s =>
      have hid : s.id = t.sessionId := KeyedList.key_of_find? hget
      refine ⟨fun s' a hs' hactive => absurd hactive ?_, fun t' σ' _ hn => by cases hn⟩
      rw [Bool.not_eq_true]
      cases ha : s.isActive with
      | true =>
          rw [start_complete hget ho ha, Engine.get?_finished (by exact hid)] at hs'
          rw [Option.some.injEq] at hs'
          subst hs'
          rfl
      | false =>
          rw [start_complete_of_not_isActive hget ho ha, get?_keep_capture hget] at hs'
          rw [Option.some.injEq] at hs'
          subst hs'
          exact ha

/-- What a stage leaves it leaves also when the node is put down as left. -/
theorem Leaves.leaving {r : Except EngineError Turn} (h : t.Leaves L others σ r e)
    (hissued : IsIssued e.nextSession t.sessionId) (hd : t.Departs L σ r e) :
    t.Leaves (L.leaving t.sessionId t.node.id) others σ r e := by
  obtain ⟨hleft, hbeyond⟩ := hd
  cases r with
  | error err => exact ⟨h.1.leaving hissued hleft, h.2⟩
  | ok t' =>
      obtain ⟨hid, hready⟩ := h
      refine ⟨hid, ?_⟩
      cases hn : t'.next? σ with
      | none =>
          rw [hn] at hready
          exact Engine.Sound.leaving hready hissued hleft
      | some σ' =>
          rw [hn] at hready
          obtain ⟨hsound, hfits, hcost⟩ := hready
          have hgoes := hbeyond t' σ' rfl hn
          rw [← hid] at hissued hleft hgoes ⊢
          exact ⟨hsound.leaving hissued hleft, hfits.leaving hgoes, hcost⟩

/-- What a stage leaves comes to its end as a whole turn does. -/
theorem Leaves.sound_run {limit : Nat}
    (h : t.Leaves L others σ ((t.perform σ).start e).1 ((t.perform σ).start e).2)
    (hcost : t.cost σ ≤ limit + 1) : ((run (limit + 1) σ t).start e).2.Sound L others := by
  rw [run]
  cases hp : (t.perform σ).start e with
  | mk r e' =>
      rw [hp] at h
      cases r with
      | error err =>
          rw [start_bind_of_error hp]
          exact h.1
      | ok t' =>
          obtain ⟨-, hready⟩ := h
          rw [start_bind_of_ok hp]
          cases hn : t'.next? σ with
          | none =>
              rw [hn] at hready
              exact hready
          | some σ' =>
              rw [hn] at hready
              obtain ⟨hsound, hfits, hless⟩ := hready
              exact (settles_run hsound hfits (by omega)).sound

/-- A turn that is to move or to complete its session leaves the node where it
stands. -/
theorem sound_run_of_departs {limit : Nat} (hσ : σ = .advance ∨ σ = .complete)
    (h : e.Sound L (t.Moving others σ)) (hf : t.Fits L e.nextSession σ)
    (hcost : t.cost σ ≤ limit) :
    ((run limit σ t).start e).2.Sound (L.leaving t.sessionId t.node.id) others := by
  obtain ⟨hsame, hleaves⟩ := leaves_perform h hf
  have hdeparts : t.Departs L σ ((t.perform σ).start e).1 ((t.perform σ).start e).2 := by
    rcases hσ with rfl | rfl
    · exact departs_advance hf
    · exact departs_complete hf
  have hissued : IsIssued ((t.perform σ).start e).2.nextSession t.sessionId :=
    hsame.nextSession.symm ▸ hf.issued
  cases limit with
  | zero => exact absurd (t.cost_pos σ) (by omega)
  | succ limit => exact (hleaves.leaving hissued hdeparts).sound_run hcost

/-- An edge that is followed moves the session or completes it. -/
theorem afterDispatch_of_along {o : Outcome} {target : Option String} (h : o.move = .along target) :
    (t.heard o).afterDispatch = .advance ∨ (t.heard o).afterDispatch = .complete := by
  simp only [afterDispatch, heard, h]
  cases target with
  | none => exact Or.inr rfl
  | some node => exact Or.inl rfl

end Turn

/-! ## Actions that succeed -/

variable {n : Node} {expiry : Instant}

/-- A success that is not refused is followed. -/
theorem Node.move_of_succeeded {b : Branches} {bindings : Dict String} {input : String}
    {r : ActionResult} {o : Outcome} (hb : n.branches? = some b) (hs : r.succeeded = true)
    (ho : n.interpret bindings input r = .ok o) : o.move = .along b.success := by
  rw [interpret_action hb] at ho
  by_cases hl : r.HasOverlong
  · rw [Handler.afterAction_of_hasOverlong hl] at ho
    cases ho
  · rw [Handler.afterAction_of_succeeded hl hs] at ho
    exact (Handler.followWith_ok ho).1

/-- **Departures.**  When a node leads an input along an edge the session has left
the node: it is still active and rests beyond, with its time renewed, or it is
completed. -/
theorem processInput_of_along (h : e.Sound L others) (ha : e.Awaits id s (L.pin id) n)
    (htime : e.now.afterSeconds? e.settings.sessionTimeout = some expiry) {input : String}
    {o : Outcome} {target : Option String}
    (ho : n.interpret s.bindings input (e.resultAt s n input expiry) = .ok o)
    (hmove : o.move = .along target) :
    e.SameService ((processInput id input).start e).2 ∧
      ((processInput id input).start e).2.Sound (L.leaving id n.id) others ∧
      ∃ s', ((processInput id input).start e).2.store.get? id = some s' ∧ s'.expiresAt = expiry ∧
        (s'.isActive = true ∨ s'.status = .completed) := by
  obtain ⟨e₁, e₂, ⟨h₁, -⟩, ⟨h₂, -⟩, hstart⟩ := start_processInput_of_awaits ha input
  have hsound := h₁.sound h
  have ha₁ := h₁.awaits ha
  rw [← h₁.resultAt] at ho
  have hplay := Turn.start_play_ofInput ha₁ hsound.replaced (h₁.service.renewal.trans htime) input
  rw [ho] at hplay
  obtain ⟨hready, hfits, hcost⟩ := Turn.ready_heard hsound ha₁ ho
  have hlimit : ((Turn.ofInput id (L.pin id) n input).heard o).cost
      ((Turn.ofInput id (L.pin id) n input).heard o).afterDispatch ≤
      Turn.stageLimit (L.pin id) - 2 := Nat.le_sub_one_of_lt hcost
  have hleft := Turn.sound_run_of_departs (Turn.afterDispatch_of_along hmove) hready hfits hlimit
  have hsettles := Turn.settles_run hready hfits hlimit
  have hget : ((e₁.received (s.receivedAt input e₁.now expiry) input).acted n
      (s.receivedAt input e₁.now expiry)).store.get? id =
        some (s.receivedAt input e₁.now expiry) := by
    rw [Engine.store_acted, Engine.store_received, Engine.get?_keep]
    exact if_pos ha.sameId
  obtain ⟨-, hruns⟩ := Turn.run_smooth hready hfits hlimit (Turn.isSmooth_afterDispatch _)
  obtain ⟨t', e', s', hrun, -, hget', hexpires, hstands⟩ := hruns _ hget ha.active
  have hsame : e.SameService (Turn.run (Turn.stageLimit (L.pin id) - 2)
      ((Turn.ofInput id (L.pin id) n input).heard o).afterDispatch
      ((Turn.ofInput id (L.pin id) n input).heard o) |>.start
        ((e₁.received (s.receivedAt input e₁.now expiry) input).acted n
          (s.receivedAt input e₁.now expiry))).2 := by
    rw [hrun] at hsettles ⊢
    exact ((h₁.service.trans (e₁.sameService_received _ input)).trans
      (Engine.sameService_acted ..)).trans hsettles.1
  rw [Turn.start_shown_state, hplay] at h₂
  rw [hstart]
  refine ⟨hsame.trans h₂.service, h₂.sound hleft, s', ?_, hexpires, hstands⟩
  rw [h₂.store]
  exact (congrArg (·.2.store.get? id) hrun).trans hget'

/-- When the action of a node has succeeded, and the node does not refuse the
success, the session has left the node. -/
theorem sound_processInput_of_succeeded (h : e.Sound L others) (ha : e.Awaits id s (L.pin id) n)
    (htime : e.now.afterSeconds? e.settings.sessionTimeout = some expiry) {input : String}
    {b : Branches} (hb : n.branches? = some b)
    (hs : (e.resultAt s n input expiry).succeeded = true)
    (haccepts : ¬ n.Refuses input (e.resultAt s n input expiry)) :
    ((processInput id input).start e).2.Sound (L.leaving id n.id) others := by
  rcases n.interpret_cases s.bindings input (e.resultAt s n input expiry) with
    ⟨hrefuses, -⟩ | ⟨-, o, ho⟩
  · exact absurd hrefuses haccepts
  · exact (processInput_of_along h ha htime ho (Node.move_of_succeeded hb hs ho)).2.1

end UssdFlows
