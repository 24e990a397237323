import Mathlib.Data.List.Nodup
import UssdFlows.Proofs.Flow.Verdict

/-!
# Taking a node out of a flow

When a node is taken out of a flow the other nodes stay as they are, edges to it
included.  In a flow that was valid these edges are all that can be found wrong
afterwards, besides the start if the node was that (`Flow.errors_removed`): a part of
a flow has no cycles and no ambiguous menus that the whole has not
(`Flow.IsWithout.acyclic`, `Flow.IsWithout.keys_distinct`), and an edge that leads
nowhere must have led to the node (`Flow.IsWithout.checkEdges`).

The node may be put back.  It then stands behind the others, but the flow has the same
nodes as before, and the verdict does not depend on their order
(`Flow.IsWithout.wellFormed_withNode`).
-/

namespace UssdFlows

/-- An entry that was dropped and is stored again stands at the end. -/
theorem KeyedList.items_erase_put_perm {κ β : Type} [DecidableEq κ] {key : β → κ}
    {t : KeyedList key} {k : κ} {x : β} (h : t.find? k = some x) :
    ((t.erase k).put x).items.Perm t.items := by
  obtain ⟨hmem, hkey⟩ := find?_eq_some_iff.1 h
  subst hkey
  have hnew : key x ∉ (t.erase (key x)).items.map key := by
    simp [erase]
  have hitems : ((t.erase (key x)).put x).items = (t.erase (key x)).items ++ [x] :=
    place_of_not_mem hnew
  refine (List.perm_ext_iff_of_nodup (.of_map _ (nodup _)) (.of_map _ t.nodup)).2 fun y => ?_
  rw [hitems, erase, List.mem_append, List.mem_filter, List.mem_singleton, decide_eq_true_eq]
  constructor
  · rintro (⟨hy, -⟩ | rfl)
    · exact hy
    · exact hmem
  · intro hy
    by_cases hk : key y = key x
    · have hfound := find?_of_mem hy
      rw [hk, h, Option.some.injEq] at hfound
      exact Or.inr hfound.symm
    · exact Or.inl ⟨hy, hk⟩

namespace Flow

variable {f g : Flow} {n : Node} {x : String} {limits : Limits}

/-- The flow is the other one without a node, as its next version. -/
structure IsWithout (f : Flow) (x : String) (g : Flow) : Prop where
  id : g.id = f.id
  name : g.name = f.name
  description : g.description = f.description
  version : g.version = f.version + 1
  startNode : g.startNode = f.startNode
  items : g.nodes.items = f.nodes.items.filter fun n => n.id ≠ x
  defaults : g.defaults = f.defaults

/-- A node that is there can be taken out. -/
theorem exists_withoutNode (h : f.hasNode x = true) :
    ∃ g, f.withoutNode? x = some g ∧ f.IsWithout x g ∧ g.nodes = f.nodes.erase x :=
  ⟨_, if_pos h, ⟨rfl, rfl, rfl, rfl, rfl, rfl, rfl⟩, rfl⟩

namespace IsWithout

theorem hasNode (h : f.IsWithout x g) (t : String) :
    g.hasNode t = (f.hasNode t && decide (t ≠ x)) := by
  rw [Bool.eq_iff_iff, Bool.and_eq_true, decide_eq_true_eq, Flow.hasNode, Flow.hasNode,
    KeyedList.contains_iff, KeyedList.contains_iff, KeyedList.keys, h.items, KeyedList.keys]
  simp only [List.mem_map, List.mem_filter, decide_eq_true_eq]
  constructor
  · rintro ⟨m, ⟨hm, hne⟩, rfl⟩
    exact ⟨⟨m, hm, rfl⟩, hne⟩
  · rintro ⟨⟨m, hm, rfl⟩, hne⟩
    exact ⟨m, ⟨hm, hne⟩, rfl⟩

theorem mem_of_mem (h : f.IsWithout x g) (hn : n ∈ g.nodes.items) : n ∈ f.nodes.items := by
  rw [h.items] at hn
  exact List.mem_of_mem_filter hn

/-! ## What was found before -/

/-- A part of a flow has no cycle that the flow has not. -/
theorem acyclic (h : f.IsWithout x g) (hf : f.Acyclic) : g.Acyclic := by
  have hedge : ∀ b c, g.Edge b c → f.Edge b c := by
    rintro b c ⟨n, hn, hid, ht, hhas⟩
    rw [h.hasNode, Bool.and_eq_true] at hhas
    exact ⟨n, h.mem_of_mem hn, hid, ht, hhas.1⟩
  exact fun a hcycle => hf a (Relation.TransGen.mono hedge a a hcycle)

theorem keys_distinct (h : f.IsWithout x g) (hf : f.WellFormed) :
    ∀ n ∈ g.nodes.items, (n.options.map MenuOption.key).Nodup :=
  fun n hn => hf.keys_distinct n (h.mem_of_mem hn)

/-! ## What is found now -/

theorem checkStart (h : f.IsWithout x g) (hf : f.WellFormed) :
    g.checkStart = if f.startNode = x then [.missingStart x] else [] := by
  rw [Flow.checkStart, h.startNode, h.hasNode, hf.start_exists, Bool.true_and]
  by_cases hx : f.startNode = x <;> simp [hx]

/-- The edges of a node that lead to no other node are those to the one taken out. -/
theorem dangling_node (h : f.IsWithout x g) (hf : f.WellFormed) (hn : n ∈ g.nodes.items) :
    (n.targets.map fun t => (n.id, t)).filter (fun r => !g.hasNode r.2) =
      List.replicate (n.targets.count x) (n.id, x) := by
  have hleads : ∀ t ∈ n.targets,
      ((fun r : String × String => !g.hasNode r.2) ∘ fun t => (n.id, t)) t = (t == x) := by
    intro t ht
    show (!g.hasNode t) = (t == x)
    rw [h.hasNode, hf.targets_exist n (h.mem_of_mem hn) t ht, Bool.true_and]
    by_cases hx : t = x <;> simp [hx]
  rw [List.filter_map, List.filter_congr hleads, List.filter_beq, List.map_replicate]

/-- **Broken edges.**  Each node has one broken edge for each of its edges to the node
that was taken out. -/
theorem checkEdges (h : f.IsWithout x g) (hf : f.WellFormed) :
    g.checkEdges =
      g.nodes.items.flatMap fun n => List.replicate (n.targets.count x) (.danglingEdge n.id x) := by
  rw [Flow.checkEdges, dangling, references, List.filter_flatMap, List.map_flatMap]
  refine List.flatMap_congr fun n hn => ?_
  rw [h.dangling_node hf hn, List.map_replicate]

theorem errors (h : f.IsWithout x g) (hf : f.WellFormed) (limits : Limits) :
    (g.report limits).errors =
      (if f.startNode = x then [.missingStart x] else []) ++
        g.nodes.items.flatMap fun n =>
          List.replicate (n.targets.count x) (.danglingEdge n.id x) := by
  have hmenus := errors_menus_eq_nil_iff.2 (h.keys_distinct hf)
  have hcycles := checkCycles_eq_nil_iff.2 (h.acyclic hf.acyclic)
  rw [errors_report, h.checkStart hf, h.checkEdges hf, hmenus, hcycles, List.append_nil,
    List.append_nil]

/-! ## Putting the node back -/

theorem wellFormed_withNode (h : f.IsWithout x g) (hnodes : g.nodes = f.nodes.erase x)
    (hf : f.WellFormed) (hn : f.node? x = some n) : (g.withNode n).WellFormed := by
  refine hf.of_perm h.startNode ?_
  show (g.nodes.put n).items.Perm f.nodes.items
  rw [hnodes]
  exact KeyedList.items_erase_put_perm hn

end IsWithout

/-- **Removals.**  From a valid flow any node can be taken out.  What is left is the next
version, with the other nodes as they were and in their order; what is found wrong with
it is a missing start, if the node was that, and then one broken edge for each edge of
another node to it, node by node, and nothing else.  With the same node put back, the
flow is valid again. -/
theorem errors_removed (hvalid : (f.report limits).isValid = true) (hn : f.node? x = some n) :
    ∃ g, f.withoutNode? x = some g ∧ f.IsWithout x g ∧
      (∀ limits', (g.report limits').errors =
        (if f.startNode = x then [.missingStart x] else []) ++
          (f.nodes.items.filter fun m => m.id ≠ x).flatMap fun m =>
            List.replicate (m.targets.count x) (.danglingEdge m.id x)) ∧
      ∀ limits', ((g.withNode n).report limits').isValid = true := by
  have hf := isValid_iff_wellFormed.1 hvalid
  obtain ⟨g, hg, hwithout, hnodes⟩ := exists_withoutNode (hasNode_of_node? hn)
  refine ⟨g, hg, hwithout, fun limits' => ?_, fun limits' => ?_⟩
  · rw [hwithout.errors hf limits', hwithout.items]
  · exact isValid_iff_wellFormed.2 (hwithout.wellFormed_withNode hnodes hf hn)

/-- A flow that asks for an opinion and takes both answers with the same thanks. -/
def rating : Flow where
  id := "rating"
  name := none
  description := none
  version := 1
  startNode := "ask"
  nodes := .ofList [
    ⟨"thanks", "Thank you", .terminal⟩,
    ⟨"ask", "Was it good?",
      .menu [⟨"Y", "Yes", some "thanks", by decide⟩, ⟨"N", "No", some "thanks", by decide⟩]⟩]
  defaults := .empty
  one_le_version := one_le_firstVersion

/-- Without the thanks both options lead nowhere, and the thanks put back mend both,
although they now stand last. -/
theorem errors_removed_rating :
    (rating.report .standard).isValid = true ∧
      rating.node? "thanks" = some ⟨"thanks", "Thank you", .terminal⟩ ∧
      ∃ g, rating.withoutNode? "thanks" = some g ∧ g.version = 2 ∧
        (g.report .standard).errors = [.danglingEdge "ask" "thanks", .danglingEdge "ask" "thanks"] ∧
        ((g.withNode ⟨"thanks", "Thank you", .terminal⟩).report .standard).isValid = true := by
  have hvalid : (rating.report .standard).isValid = true := by decide +kernel
  have hn : rating.node? "thanks" = some ⟨"thanks", "Thank you", .terminal⟩ := by decide +kernel
  obtain ⟨g, hg, hwithout, herrors, hback⟩ := errors_removed hvalid hn
  refine ⟨hvalid, hn, g, hg, hwithout.version, ?_, hback .standard⟩
  rw [herrors .standard]
  decide +kernel

end Flow

end UssdFlows
