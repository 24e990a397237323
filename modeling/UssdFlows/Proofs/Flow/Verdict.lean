import UssdFlows.Flow.Report
import UssdFlows.Proofs.Flow.Cycles

/-!
# What the verdict on a flow means

A flow is published only if its report holds no error.  This file says what
that verdict means for the graph (`Flow.WellFormed`): the start node exists,
every edge leads to a node, no menu offers one key twice, and no directed cycle
runs through any of the nodes, whether a session can reach it or not.

The checks are taken one by one (`checkStart_eq_nil_iff` and its companions);
warnings and suggestions have no part in the verdict, so neither the limits on
prompts and menus nor the order of the nodes can change it.
-/

namespace UssdFlows

namespace Flow

/-- The graph of a flow is sound: sessions can start, every edge leads
somewhere, every option can be told from the others, and every walk ends. -/
structure WellFormed (f : Flow) : Prop where
  start_exists : f.hasNode f.startNode = true
  targets_exist : ∀ n ∈ f.nodes.items, ∀ t ∈ n.targets, f.hasNode t = true
  keys_distinct : ∀ n ∈ f.nodes.items, (n.options.map MenuOption.key).Nodup
  acyclic : f.Acyclic

/-! ## The checks that find errors -/

theorem checkStart_eq_nil_iff {f : Flow} :
    f.checkStart = [] ↔ f.hasNode f.startNode = true := by
  rw [checkStart]
  by_cases h : f.hasNode f.startNode = true <;> simp [h]

theorem checkEdges_eq_nil_iff {f : Flow} :
    f.checkEdges = [] ↔ ∀ n ∈ f.nodes.items, ∀ t ∈ n.targets, f.hasNode t = true := by
  rw [checkEdges, List.map_eq_nil_iff, dangling, List.filter_eq_nil_iff]
  constructor
  · intro h n hn t ht
    have hmem : (n.id, t) ∈ f.references :=
      List.mem_flatMap.2 ⟨n, hn, List.mem_map.2 ⟨t, ht, rfl⟩⟩
    simpa using h (n.id, t) hmem
  · intro h r hr
    obtain ⟨n, hn, hr⟩ := List.mem_flatMap.1 hr
    obtain ⟨t, ht, rfl⟩ := List.mem_map.1 hr
    simpa using h n hn t ht

/-- No key is listed as repeated exactly if all keys differ. -/
theorem repeated_eq_nil_iff {keys : List String} : repeated keys = [] ↔ keys.Nodup := by
  rw [repeated, List.filter_eq_nil_iff, List.nodup_iff_count]
  constructor
  · intro h k
    by_cases hk : k ∈ keys
    · simpa using h k (List.mem_eraseDups.2 hk)
    · rw [List.count_eq_zero_of_not_mem hk]
      exact Nat.zero_le 1
  · intro h k _
    simpa using h k

/-- The only error in a menu is a repeated key. -/
theorem errors_checkMenu_eq_nil_iff {n : Node} :
    (checkMenu n).filter (fun i => i.severity == .error) = [] ↔
      (n.options.map MenuOption.key).Nodup := by
  rw [checkMenu, Node.options]
  cases n.behaviour with
  | menu options =>
      cases options with
      | nil => simp [Finding.severity]
      | cons o rest =>
          dsimp only
          rw [← repeated_eq_nil_iff]
          cases repeated ((o :: rest).map MenuOption.key) with
          | nil => simp
          | cons k more => simp [Finding.severity]
  | _ => simp

theorem errors_menus_eq_nil_iff {f : Flow} :
    (f.nodes.items.flatMap checkMenu).filter (fun i => i.severity == .error) = [] ↔
      ∀ n ∈ f.nodes.items, (n.options.map MenuOption.key).Nodup := by
  rw [List.filter_flatMap, List.flatMap_eq_nil_iff]
  exact forall₂_congr fun n _ => errors_checkMenu_eq_nil_iff

theorem checkCycles_eq_nil_iff {f : Flow} : f.checkCycles = [] ↔ f.Acyclic := by
  rw [checkCycles, List.map_eq_nil_iff, cycleNodes_eq_nil_iff]

/-! ## The checks that find none -/

theorem errors_checkReachability (f : Flow) :
    f.checkReachability.filter (fun i => i.severity == .error) = [] := by
  rw [List.filter_eq_nil_iff]
  intro i hi
  rcases List.mem_append.1 hi with h | h
  · obtain ⟨id, -, rfl⟩ := List.mem_map.1 h
    exact Bool.false_ne_true
  · split at h
    · simp at h
    · rw [List.mem_singleton] at h
      subst h
      exact Bool.false_ne_true

theorem errors_checkUsability (limits : Limits) (bindings : Dict String) (n : Node) :
    (checkUsability limits bindings n).filter (fun i => i.severity == .error) = [] := by
  rw [checkUsability]
  cases n.behaviour <;> dsimp only <;> repeat' split
  all_goals simp [Finding.severity]

/-! ## The verdict -/

/-- The errors in a report are those of the four checks that find any. -/
theorem errors_report (f : Flow) (limits : Limits) :
    (f.report limits).errors = f.checkStart ++ f.checkEdges ++
      (f.nodes.items.flatMap checkMenu).filter (fun i => i.severity == .error) ++
      f.checkCycles := by
  have hstart : f.checkStart.filter (fun i => i.severity == .error) = f.checkStart := by
    rw [checkStart]
    split <;> simp [Finding.severity]
  have hedges : f.checkEdges.filter (fun i => i.severity == .error) = f.checkEdges := by
    simp [checkEdges, List.filter_map, Function.comp_def, Finding.severity]
  have hcycles : f.checkCycles.filter (fun i => i.severity == .error) = f.checkCycles := by
    simp [checkCycles, List.filter_map, Function.comp_def, Finding.severity]
  have hreach : (if f.hasNode f.startNode = true then f.checkReachability else []).filter
      (fun i => i.severity == .error) = [] := by
    split
    · exact errors_checkReachability f
    · rfl
  have husable : (f.nodes.items.flatMap (checkUsability limits f.defaults)).filter
      (fun i => i.severity == .error) = [] := by
    rw [List.filter_flatMap, List.flatMap_eq_nil_iff]
    exact fun n _ => errors_checkUsability limits f.defaults n
  show (f.findings limits).filter (fun i => i.severity == .error) = _
  simp only [findings, List.filter_append, hstart, hedges, hcycles, hreach, husable,
    List.append_nil]

/-- A flow is found valid exactly if its graph is sound. -/
theorem isValid_iff_wellFormed {f : Flow} {limits : Limits} :
    (f.report limits).isValid = true ↔ f.WellFormed := by
  rw [Report.isValid, errors_report, List.isEmpty_iff]
  simp only [List.append_eq_nil_iff, checkStart_eq_nil_iff, checkEdges_eq_nil_iff,
    errors_menus_eq_nil_iff, checkCycles_eq_nil_iff]
  exact ⟨fun ⟨⟨⟨h1, h2⟩, h3⟩, h4⟩ => ⟨h1, h2, h3, h4⟩, fun ⟨h1, h2, h3, h4⟩ => ⟨⟨⟨h1, h2⟩, h3⟩, h4⟩⟩

/-! ## The order of the nodes -/

theorem hasNode_eq_of_perm {f g : Flow} (h : g.nodes.items.Perm f.nodes.items) (id : String) :
    g.hasNode id = f.hasNode id := by
  have hkeys : g.nodes.keys.Perm f.nodes.keys := h.map Node.id
  rw [Bool.eq_iff_iff, hasNode, hasNode, KeyedList.contains_iff, KeyedList.contains_iff]
  exact hkeys.mem_iff

theorem edge_eq_of_perm {f g : Flow} (h : g.nodes.items.Perm f.nodes.items) :
    g.Edge = f.Edge := by
  funext a b
  refine propext (exists_congr fun n => ?_)
  rw [h.mem_iff, hasNode_eq_of_perm h]

/-- The same nodes in another order make an equally sound graph. -/
theorem WellFormed.of_perm {f g : Flow} (hf : f.WellFormed) (hstart : g.startNode = f.startNode)
    (h : g.nodes.items.Perm f.nodes.items) : g.WellFormed where
  start_exists := by
    rw [hasNode_eq_of_perm h, hstart]
    exact hf.start_exists
  targets_exist := fun n hn t ht => by
    rw [hasNode_eq_of_perm h]
    exact hf.targets_exist n (h.mem_iff.1 hn) t ht
  keys_distinct := fun n hn => hf.keys_distinct n (h.mem_iff.1 hn)
  acyclic := by
    rw [Acyclic, edge_eq_of_perm h]
    exact hf.acyclic

/-- **The verdict is exact.**  Whatever the limits, a flow is found valid if and
only if its start node exists, every edge leads to a node, the keys of every
menu differ, and no directed cycle runs along its edges.  The verdict does not
change with the limits, nor with the order of the nodes. -/
theorem isValid_report_iff (f : Flow) (limits : Limits) :
    ((f.report limits).isValid = true ↔
      f.hasNode f.startNode = true ∧
      (∀ n ∈ f.nodes.items, ∀ t ∈ n.targets, f.hasNode t = true) ∧
      (∀ n ∈ f.nodes.items, (n.options.map MenuOption.key).Nodup) ∧
      ∀ a, ¬ Relation.TransGen f.Edge a a) ∧
    ∀ (g : Flow) (limits' : Limits), g.startNode = f.startNode →
      g.nodes.items.Perm f.nodes.items →
      (g.report limits').isValid = (f.report limits).isValid := by
  constructor
  · rw [isValid_iff_wellFormed]
    exact ⟨fun h => ⟨h.start_exists, h.targets_exist, h.keys_distinct, h.acyclic⟩,
      fun h => ⟨h.1, h.2.1, h.2.2.1, h.2.2.2⟩⟩
  · intro g limits' hstart hperm
    rw [Bool.eq_iff_iff, isValid_iff_wellFormed, isValid_iff_wellFormed]
    exact ⟨fun h => h.of_perm hstart.symm hperm.symm, fun h => h.of_perm hstart hperm⟩

/-- A flow that asks for a name, unless it is known already. -/
def greeting : Flow where
  id := "greeting"
  name := none
  description := none
  version := 1
  startNode := "known"
  nodes := .ofList [
    ⟨"known", "", .conditional ⟨"name", .startsWith, "A"⟩ ⟨none, none⟩ (some "ask")⟩,
    ⟨"ask", "Your name?", .input ⟨"name", true, none⟩ none⟩]
  defaults := .empty
  one_le_version := one_le_firstVersion

/-- The same flow with its nodes the other way round. -/
def greetingReversed : Flow :=
  { greeting with nodes := .ofList greeting.nodes.items.reverse }

/-- The order of its two nodes does not make that flow less valid. -/
theorem isValid_report_greetingReversed :
    greetingReversed.startNode = greeting.startNode ∧
      greetingReversed.nodes.items.Perm greeting.nodes.items ∧
      (greetingReversed.report .standard).isValid = true := by
  have hstart : greetingReversed.startNode = greeting.startNode := rfl
  have hperm : greetingReversed.nodes.items.Perm greeting.nodes.items := by decide +kernel
  have hvalid : (greeting.report .standard).isValid = true := by decide +kernel
  refine ⟨hstart, hperm, ?_⟩
  rw [(isValid_report_iff greeting .standard).2 greetingReversed .standard hstart hperm]
  exact hvalid

end Flow

end UssdFlows
