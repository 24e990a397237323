import Mathlib.Data.List.Nodup
import Mathlib.Data.List.Perm.Subperm
import Mathlib.Logic.Relation
import UssdFlows.Flow.Adjacency

/-!
# The search in depth finds every cycle

`Flow.cycleNodes` walks through a flow in depth and reports the nodes at which
it meets its own path.  This file ties it to the graph itself.

* **Sound.**  A reported node lies on a directed cycle
  (`transGen_of_mem_closing`): the path of the search leads from it back to
  it.
* **Complete.**  Every cycle runs through a reported node
  (`not_transGen_avoiding`), so that nothing is reported exactly if there is no
  cycle (`closing_eq_nil_iff`).  A node that the search has left is
  *accessible*: every way out of it that avoids the reported nodes comes to an
  end.  The search never runs out of depth, since its path visits no node twice.

An acyclic flow has a `rank`: a number for each node that falls along every
edge (`rank_lt_of_edge`) and stays below the number of nodes
(`rank_lt_size`).  Whatever walks along the edges is bounded by it.
-/

namespace UssdFlows.Flow

open Relation

/-! ## Edges and cycles -/

/-- An edge of a flow: a node leads to another node that exists. -/
def Edge (f : Flow) (a b : String) : Prop :=
  ∃ n ∈ f.nodes.items, n.id = a ∧ b ∈ n.targets ∧ f.hasNode b = true

/-- No node leads back to itself, however indirectly. -/
def Acyclic (f : Flow) : Prop := ∀ a, ¬ TransGen f.Edge a a

theorem hasNode_of_node? {f : Flow} {a : String} {n : Node} (h : f.node? a = some n) :
    f.hasNode a = true := Option.isSome_iff_exists.2 ⟨n, h⟩

theorem edge_of_node? {f : Flow} {a b : String} {n : Node} (hn : f.node? a = some n)
    (ht : b ∈ n.targets) (hb : f.hasNode b = true) : f.Edge a b := by
  obtain ⟨hmem, hid⟩ := KeyedList.find?_eq_some_iff.1 hn
  exact ⟨n, hmem, hid, ht, hb⟩

/-- The successors of a node are the ends of its edges. -/
theorem mem_successors_iff {f : Flow} {a b : String} : b ∈ f.successors a ↔ f.Edge a b := by
  rw [successors]
  cases h : f.node? a with
  | none =>
      constructor
      · intro hb
        simp at hb
      · rintro ⟨n, hn, rfl, -, -⟩
        rw [node?, KeyedList.find?_of_mem hn] at h
        simp at h
  | some n =>
      rw [List.mem_eraseDups, List.mem_filter]
      constructor
      · intro hb
        exact edge_of_node? h hb.1 hb.2
      · rintro ⟨m, hm, rfl, ht, hb⟩
        rw [node?, KeyedList.find?_of_mem hm] at h
        cases h
        exact ⟨ht, hb⟩

theorem hasNode_of_edge {f : Flow} {a b : String} (h : f.Edge a b) : f.hasNode b = true := by
  obtain ⟨-, -, -, -, hb⟩ := h
  exact hb

theorem hasNode_of_transGen {f : Flow} {a b : String} (h : TransGen f.Edge a b) :
    f.hasNode b = true := by
  cases h with
  | single h => exact hasNode_of_edge h
  | tail _ h => exact hasNode_of_edge h

/-- From a node whose ways out all come to an end no way leads back to it. -/
theorem not_transGen_self_of_acc {α : Type} {r : α → α → Prop} {a : α}
    (h : Acc (fun b a => r a b) a) : ¬ TransGen r a a := by
  induction h with
  | intro a _ ih =>
      intro hcycle
      obtain ⟨b, hab, hba⟩ := TransGen.head'_iff.1 hcycle
      exact ih b hab (TransGen.tail' hba hab)

/-! ## One node of the search -/

variable {next : String → List String}

/-- Reports a node, once. -/
def Search.report (s : Search) (t : String) : Search :=
  { s with closing := if s.closing.contains t then s.closing else s.closing ++ [t] }

theorem Search.mem_closing_report {s : Search} {t u : String} :
    u ∈ (s.report t).closing ↔ u ∈ s.closing ∨ u = t := by
  rw [report]
  by_cases hc : s.closing.contains t = true
  · rw [if_pos hc]
    refine ⟨Or.inl, fun h => h.elim (fun h => h) ?_⟩
    rintro rfl
    exact List.contains_iff_mem.1 hc
  · rw [if_neg hc, List.mem_append, List.mem_singleton]

/-- What the search does with a node that the last node of its path leads to. -/
def probe (next : String → List String) (depth : Nat) (path : List String) (s : Search)
    (t : String) : Search :=
  if path.contains t then s.report t
  else if s.entered.contains t then s
  else enter next depth path s t

theorem enter_succ (depth : Nat) (path : List String) (s : Search) (id : String) :
    enter next (depth + 1) path s id =
      (next id).foldl (probe next depth (id :: path)) { s with entered := id :: s.entered } := rfl

/-! ### Nothing is forgotten -/

/-- A search goes on from another one: it has entered and reported at least the
same nodes. -/
structure Search.Extends (s s' : Search) : Prop where
  entered : ∀ a ∈ s.entered, a ∈ s'.entered
  closing : ∀ a ∈ s.closing, a ∈ s'.closing

theorem Search.Extends.refl (s : Search) : s.Extends s := ⟨fun _ h => h, fun _ h => h⟩

theorem Search.Extends.trans {s s' s'' : Search} (h : s.Extends s') (h' : s'.Extends s'') :
    s.Extends s'' :=
  ⟨fun a ha => h'.entered a (h.entered a ha), fun a ha => h'.closing a (h.closing a ha)⟩

theorem Search.extends_report (s : Search) (t : String) : s.Extends (s.report t) :=
  ⟨fun _ ha => ha, fun _ ha => mem_closing_report.2 (Or.inl ha)⟩

/-- Anything built by steps that extend the search extends it. -/
theorem Search.extends_foldl {op : Search → String → Search}
    (hop : ∀ (s : Search) (t : String), s.Extends (op s t)) (ts : List String) (s : Search) :
    s.Extends (ts.foldl op s) := by
  induction ts generalizing s with
  | nil => exact .refl s
  | cons t rest ih => exact (hop s t).trans (ih (op s t))

theorem probe_extends_of_enter {depth : Nat} {path : List String}
    (h : ∀ (s : Search) (t : String), s.Extends (enter next depth path s t)) (s : Search) (t : String) :
    s.Extends (probe next depth path s t) := by
  unfold probe
  split
  · exact s.extends_report t
  · split
    · exact .refl s
    · exact h s t

theorem enter_extends (depth : Nat) (path : List String) (s : Search) (id : String) :
    s.Extends (enter next depth path s id) := by
  induction depth generalizing path s id with
  | zero => exact .refl s
  | succ depth ih =>
      rw [enter_succ]
      have hfirst : s.Extends { s with entered := id :: s.entered } :=
        ⟨fun a ha => List.mem_cons_of_mem _ ha, fun _ hc => hc⟩
      exact hfirst.trans (Search.extends_foldl (probe_extends_of_enter (ih (id :: path))) _ _)

theorem probe_extends (depth : Nat) (path : List String) (s : Search) (t : String) :
    s.Extends (probe next depth path s t) := probe_extends_of_enter (enter_extends depth path) s t

theorem mem_entered_enter (depth : Nat) (path : List String) (s : Search) (id : String) :
    id ∈ (enter next (depth + 1) path s id).entered := by
  rw [enter_succ]
  exact (Search.extends_foldl (probe_extends depth (id :: path)) _ _).entered id
    (List.mem_cons_self ..)

/-! ### Reported nodes lie on cycles -/

/-- One node is listed among the successors of another one. -/
def Next (next : String → List String) (a b : String) : Prop := b ∈ next a

/-- Every reported node leads back to itself. -/
def Search.Sound (next : String → List String) (s : Search) : Prop :=
  ∀ t ∈ s.closing, TransGen (Next next) t t

theorem Search.Sound.report {s : Search} (h : s.Sound next) {t : String}
    (ht : TransGen (Next next) t t) : (s.report t).Sound next := by
  intro u hu
  rcases Search.mem_closing_report.1 hu with hu | rfl
  · exact h u hu
  · exact ht

/-- Every node of the path leads to the node that is entered, so a successor on
the path closes a cycle. -/
theorem enter_sound {depth : Nat} {path : List String} {s : Search} {id : String}
    (hpath : ∀ p ∈ path, TransGen (Next next) p id) (hs : s.Sound next) :
    (enter next depth path s id).Sound next := by
  induction depth generalizing path s id with
  | zero => exact hs
  | succ depth ih =>
      rw [enter_succ]
      refine List.foldlRecOn (next id) _ (motive := Search.Sound next) hs ?_
      intro s hs t ht
      unfold probe
      split
      · rename_i hc
        refine hs.report ?_
        rcases List.mem_cons.1 (List.contains_iff_mem.1 hc) with rfl | hp
        · exact .single ht
        · exact (hpath t hp).tail ht
      · split
        · exact hs
        · refine ih ?_ hs
          intro p hp
          rcases List.mem_cons.1 hp with rfl | hp
          · exact .single ht
          · exact (hpath p hp).tail ht

/-! ### No node is reported twice -/

theorem Search.nodup_closing_report {s : Search} (h : s.closing.Nodup) (t : String) :
    (s.report t).closing.Nodup := by
  rw [report]
  by_cases hc : s.closing.contains t = true
  · rw [if_pos hc]
    exact h
  · rw [if_neg hc]
    refine List.Nodup.append h (List.nodup_singleton t) fun u hu hut => hc ?_
    rw [List.mem_singleton.1 hut] at hu
    exact List.contains_iff_mem.2 hu

theorem foldl_probe_nodup {depth : Nat} {path : List String} {s : Search}
    (henter : ∀ (s : Search) (t : String), s.closing.Nodup →
      (enter next depth path s t).closing.Nodup) (ts : List String) (hs : s.closing.Nodup) :
    (ts.foldl (probe next depth path) s).closing.Nodup := by
  refine List.foldlRecOn ts _ (motive := fun s : Search => s.closing.Nodup) hs fun s hs t _ => ?_
  unfold probe
  split
  · exact Search.nodup_closing_report hs t
  · split
    · exact hs
    · exact henter s t hs

theorem enter_nodup (depth : Nat) (path : List String) (s : Search) (id : String)
    (hs : s.closing.Nodup) : (enter next depth path s id).closing.Nodup := by
  induction depth generalizing path s id with
  | zero => exact hs
  | succ depth ih =>
      rw [enter_succ]
      exact foldl_probe_nodup (fun s t => ih (id :: path) s t) (next id) hs

/-! ### Every cycle runs through a reported node -/

/-- One node leads to another one that is not among some others. -/
def Avoiding (next : String → List String) (others : List String) (a b : String) : Prop :=
  Next next a b ∧ b ∉ others

/-- Every way out of a node that avoids some others comes to an end. -/
def Ends (next : String → List String) (others : List String) (a : String) : Prop :=
  Acc (fun b a => Avoiding next others a b) a

/-- The more there is to avoid the fewer ways there are. -/
theorem Ends.mono {others others' : List String} (h : ∀ a ∈ others, a ∈ others') {a : String}
    (ha : Ends next others a) : Ends next others' a :=
  Subrelation.accessible (fun hstep => ⟨hstep.1, fun hmem => hstep.2 (h _ hmem)⟩) ha

/-- All ways that avoid the reported nodes end at the nodes that the search has
left; those on its path it has not left yet. -/
def Search.Settled (next : String → List String) (path : List String) (s : Search) : Prop :=
  ∀ a ∈ s.entered, a ∈ path ∨ Ends next s.closing a

theorem Search.Settled.report {path : List String} {s : Search} (h : s.Settled next path)
    (t : String) : (s.report t).Settled next path :=
  fun a ha => (h a ha).imp_right (Ends.mono (s.extends_report t).closing)

section Completeness

variable {nodes : List String} (hnext : ∀ a, ∀ t ∈ next a, t ∈ nodes)

/-- The search enters whatever it has room for: a path without repetitions
through known nodes is never longer than there are nodes. -/
theorem depth_pos {depth : Nat} {path : List String} {id : String}
    (hnodup : (id :: path).Nodup) (hsub : ∀ a ∈ id :: path, a ∈ nodes)
    (hdepth : nodes.length ≤ path.length + depth) : 0 < depth := by
  have hlen : (id :: path).length ≤ nodes.length := (hnodup.subperm hsub).length_le
  rw [List.length_cons] at hlen
  omega

/-- Once some nodes have been probed, those on the path have been reported and the
others have been left. -/
theorem foldl_probe_settled {depth : Nat} {path : List String}
    (henter : ∀ (s : Search) (t : String), t ∈ nodes → t ∉ path → s.Settled next path →
      (enter next depth path s t).Settled next path ∧ t ∈ (enter next depth path s t).entered)
    {ts : List String} (hts : ∀ t ∈ ts, t ∈ nodes) {s : Search} (hs : s.Settled next path) :
    (ts.foldl (probe next depth path) s).Settled next path ∧
      ∀ t ∈ ts, t ∈ path ∧ t ∈ (ts.foldl (probe next depth path) s).closing ∨
        t ∉ path ∧ t ∈ (ts.foldl (probe next depth path) s).entered := by
  induction ts generalizing s with
  | nil => exact ⟨hs, fun t ht => absurd ht (by simp)⟩
  | cons t rest ih =>
      have ht : t ∈ nodes := hts t (List.mem_cons_self ..)
      have hrest : ∀ u ∈ rest, u ∈ nodes := fun u hu => hts u (List.mem_cons_of_mem _ hu)
      rw [List.foldl_cons]
      have hext : (probe next depth path s t).Extends
          (rest.foldl (probe next depth path) (probe next depth path s t)) :=
        Search.extends_foldl (probe_extends depth path) rest _
      -- the first probe either reports `t`, or finds it left, or enters it
      have hprobe : (probe next depth path s t).Settled next path ∧
          (t ∈ path ∧ t ∈ (probe next depth path s t).closing ∨
            t ∉ path ∧ t ∈ (probe next depth path s t).entered) := by
        by_cases hc : path.contains t = true
        · rw [probe, if_pos hc]
          exact ⟨hs.report t,
            Or.inl ⟨List.contains_iff_mem.1 hc, Search.mem_closing_report.2 (Or.inr rfl)⟩⟩
        · have hpath : t ∉ path := fun h => hc (List.contains_iff_mem.2 h)
          rw [probe, if_neg hc]
          by_cases he : s.entered.contains t = true
          · rw [if_pos he]
            exact ⟨hs, Or.inr ⟨hpath, List.contains_iff_mem.1 he⟩⟩
          · rw [if_neg he]
            obtain ⟨h1, h2⟩ := henter s t ht hpath hs
            exact ⟨h1, Or.inr ⟨hpath, h2⟩⟩
      obtain ⟨hset, hin⟩ := ih hrest hprobe.1
      refine ⟨hset, fun u hu => ?_⟩
      rcases List.mem_cons.1 hu with rfl | hu
      · exact hprobe.2.imp (And.imp_right (hext.closing u)) (And.imp_right (hext.entered u))
      · exact hin u hu

include hnext in
/-- A search that enters a node leaves it again with all ways out of it explored. -/
theorem enter_settled {depth : Nat} {path : List String} {s : Search} {id : String}
    (hnodup : (id :: path).Nodup) (hsub : ∀ a ∈ id :: path, a ∈ nodes)
    (hdepth : nodes.length ≤ path.length + depth) (hs : s.Settled next path) :
    (enter next depth path s id).Settled next path ∧
      id ∈ (enter next depth path s id).entered := by
  induction depth generalizing path s id with
  | zero => exact absurd (depth_pos hnodup hsub hdepth) (Nat.lt_irrefl 0)
  | succ depth ih =>
      refine ⟨?_, mem_entered_enter depth path s id⟩
      rw [enter_succ]
      have hstart : Search.Settled next (id :: path) { s with entered := id :: s.entered } := by
        intro a ha
        rcases List.mem_cons.1 ha with rfl | ha
        · exact Or.inl (List.mem_cons_self ..)
        · exact (hs a ha).imp (List.mem_cons_of_mem _) fun h => h
      have henter : ∀ (s : Search) (t : String), t ∈ nodes → t ∉ id :: path → s.Settled next (id :: path) →
          (enter next depth (id :: path) s t).Settled next (id :: path) ∧
            t ∈ (enter next depth (id :: path) s t).entered := by
        intro s t ht hpath hs
        refine ih (List.nodup_cons.2 ⟨hpath, hnodup⟩) ?_ ?_ hs
        · intro a ha
          rcases List.mem_cons.1 ha with rfl | ha
          · exact ht
          · exact hsub a ha
        · rw [List.length_cons]
          omega
      obtain ⟨hset, hin⟩ := foldl_probe_settled henter (hnext id) hstart
      intro a ha
      -- the successors of `id` have been reported or left, so the ways out of `id` end as well
      have hid : Ends next ((next id).foldl (probe next depth (id :: path))
          { s with entered := id :: s.entered }).closing id := by
        refine Acc.intro id fun t ⟨ht, havoid⟩ => ?_
        rcases hin t ht with ⟨-, hreported⟩ | ⟨hpath, hent⟩
        · exact absurd hreported havoid
        · exact (hset t hent).resolve_left hpath
      rcases hset a ha with hmem | hends
      · rcases List.mem_cons.1 hmem with rfl | hmem
        · exact Or.inr hid
        · exact Or.inl hmem
      · exact Or.inr hends

/-- Roots are probed with an empty path. -/
theorem searchFrom_eq (next : String → List String) (depth : Nat) (roots : List String) :
    searchFrom next depth roots = roots.foldl (probe next depth []) ⟨[], []⟩ := rfl

include hnext in
/-- Searching from every root, all ways out of every root that avoid the reported
nodes end. -/
theorem ends_of_searchFrom {depth : Nat} {roots : List String} (hroots : ∀ r ∈ roots, r ∈ nodes)
    (hdepth : nodes.length ≤ depth) :
    ∀ r ∈ roots, Ends next (searchFrom next depth roots).closing r := by
  have henter : ∀ (s : Search) (t : String), t ∈ nodes → t ∉ [] → s.Settled next [] →
      (enter next depth [] s t).Settled next [] ∧ t ∈ (enter next depth [] s t).entered := by
    intro s t ht _ hs
    refine enter_settled hnext (List.nodup_singleton t) (fun a ha => ?_) (by simpa using hdepth) hs
    rwa [List.mem_singleton.1 ha]
  intro r hr
  rw [searchFrom_eq]
  obtain ⟨hset, hin⟩ := foldl_probe_settled henter hroots (s := ⟨[], []⟩)
    (fun a ha => absurd ha (by simp))
  obtain ⟨hmem, -⟩ | ⟨-, hent⟩ := hin r hr
  · simp at hmem
  · exact (hset r hent).resolve_left (by simp)

end Completeness

/-! ## The search in a flow -/

theorem next_successors_eq_edge (f : Flow) : Next f.successors = f.Edge := by
  funext a b
  exact propext mem_successors_iff

/-- A reported node lies on a cycle, whatever the roots are. -/
theorem transGen_of_mem_closing {f : Flow} {roots : List String} {t : String}
    (h : t ∈ (searchFrom f.successors f.size roots).closing) : TransGen f.Edge t t := by
  rw [← next_successors_eq_edge]
  have hsound : Search.Sound f.successors (searchFrom f.successors f.size roots) := by
    refine List.foldlRecOn roots _ (motive := Search.Sound f.successors)
      (fun t ht => absurd ht (by simp)) ?_
    intro s hs r _
    split
    · exact hs
    · exact enter_sound (fun p hp => absurd hp (by simp)) hs
  exact hsound t h

/-- Whatever root comes first, each node that is reported is reported once. -/
theorem nodup_cycleNodes (f : Flow) (first : Option String) : (f.cycleNodes first).Nodup := by
  rw [cycleNodes, searchFrom_eq]
  exact foldl_probe_nodup (enter_nodup f.size []) _ List.nodup_nil

theorem mem_keys_of_mem_successors (f : Flow) : ∀ a, ∀ t ∈ f.successors a, t ∈ f.nodes.keys :=
  fun _ _ h => KeyedList.contains_iff.1 (hasNode_of_mem_successors h)

theorem length_keys_le_size (f : Flow) : f.nodes.keys.length ≤ f.size := by
  rw [KeyedList.keys, List.length_map]
  exact Nat.le_refl _

/-- From whatever roots the search starts, if it starts from all nodes, no cycle
avoids the nodes that it reports. -/
theorem not_transGen_avoiding {f : Flow} {roots : List String}
    (hroots : ∀ a, a ∈ roots ↔ a ∈ f.nodes.keys) (a : String) :
    ¬ TransGen (fun a b => f.Edge a b ∧ b ∉ (searchFrom f.successors f.size roots).closing) a a := by
  intro hcycle
  have hmem : a ∈ roots := by
    refine (hroots a).2 (KeyedList.contains_iff.1 (hasNode_of_transGen (f := f) (a := a) ?_))
    exact TransGen.mono (fun _ _ h => h.1) a a hcycle
  have hends := ends_of_searchFrom f.mem_keys_of_mem_successors (fun r hr => (hroots r).1 hr)
    f.length_keys_le_size a hmem
  rw [← next_successors_eq_edge] at hcycle
  exact not_transGen_self_of_acc hends hcycle

/-- From whatever roots the search starts, if it starts from all nodes, it reports
nothing exactly in the flows without a cycle. -/
theorem closing_eq_nil_iff {f : Flow} {roots : List String}
    (hroots : ∀ a, a ∈ roots ↔ a ∈ f.nodes.keys) :
    (searchFrom f.successors f.size roots).closing = [] ↔ f.Acyclic := by
  refine ⟨fun hnil a hcycle => ?_, fun hac => List.eq_nil_iff_forall_not_mem.2 ?_⟩
  · refine not_transGen_avoiding hroots a
      (TransGen.mono (fun _ b hedge => ⟨hedge, ?_⟩) a a hcycle)
    rw [hnil]
    exact List.not_mem_nil
  · exact fun t ht => hac t (transGen_of_mem_closing ht)

theorem cycleNodes_eq_nil_iff {f : Flow} {first : Option String} :
    f.cycleNodes first = [] ↔ f.Acyclic := closing_eq_nil_iff fun _ => mem_roots

/-! ## Ranks -/

section Rank

open Classical

/-- The number of nodes that a node leads to, however indirectly. -/
noncomputable def rank (f : Flow) (a : String) : Nat :=
  (f.nodes.keys.filter fun b => decide (TransGen f.Edge a b)).length

theorem mem_reached_iff {f : Flow} {a b : String} :
    b ∈ f.nodes.keys.filter (fun b => decide (TransGen f.Edge a b)) ↔ TransGen f.Edge a b := by
  rw [List.mem_filter, decide_eq_true_eq]
  exact ⟨fun h => h.2, fun h => ⟨KeyedList.contains_iff.1 (hasNode_of_transGen h), h⟩⟩

/-- The rank falls along every edge. -/
theorem rank_lt_of_edge {f : Flow} (hac : f.Acyclic) {a b : String} (h : f.Edge a b) :
    f.rank b < f.rank a := by
  have hnodup : (b :: f.nodes.keys.filter fun c => decide (TransGen f.Edge b c)).Nodup := by
    refine List.nodup_cons.2 ⟨fun hb => hac b (mem_reached_iff.1 hb), ?_⟩
    exact f.nodes.nodup.sublist List.filter_sublist
  refine (hnodup.subperm fun c hc => mem_reached_iff.2 ?_).length_le
  rcases List.mem_cons.1 hc with rfl | hc
  · exact .single h
  · exact .head h (mem_reached_iff.1 hc)

/-- So it falls along every path. -/
theorem rank_lt_of_transGen {f : Flow} (hac : f.Acyclic) {a b : String}
    (h : TransGen f.Edge a b) : f.rank b < f.rank a := by
  induction h with
  | single hab => exact rank_lt_of_edge hac hab
  | tail _ hbc ih => exact Nat.lt_trans (rank_lt_of_edge hac hbc) ih

/-- The rank of a node stays below the number of nodes. -/
theorem rank_lt_size {f : Flow} (hac : f.Acyclic) {a : String} (ha : f.hasNode a = true) :
    f.rank a < f.size := by
  have hnodup : (a :: f.nodes.keys.filter fun c => decide (TransGen f.Edge a c)).Nodup := by
    refine List.nodup_cons.2 ⟨fun hb => hac a (mem_reached_iff.1 hb), ?_⟩
    exact f.nodes.nodup.sublist List.filter_sublist
  have hsub : (a :: f.nodes.keys.filter fun c => decide (TransGen f.Edge a c)) ⊆ f.nodes.keys := by
    intro c hc
    rcases List.mem_cons.1 hc with rfl | hc
    · exact KeyedList.contains_iff.1 ha
    · exact (List.mem_filter.1 hc).1
  have hlen := (hnodup.subperm hsub).length_le
  rw [KeyedList.keys, List.length_map] at hlen
  exact hlen

end Rank

end UssdFlows.Flow
