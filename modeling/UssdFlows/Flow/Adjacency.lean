import UssdFlows.Flow.Basic

/-!
# Paths through a flow

The nodes of a flow and the edges between them form a directed graph.  Edges
may lead to nodes that do not exist (`dangling`); searches follow only the
others (`successors`).

* `levels` lists the nodes that can be reached from a start with their
  distance from it, nearest first.
* `cycleNodes` searches in depth and reports every node at which a search
  meets the path that led to it.  A flow without such nodes has no cycle.
-/

namespace UssdFlows.Flow

/-! ## Edges -/

/-- The edges of a flow, in the order of declaration. -/
def references (f : Flow) : List (String × String) :=
  f.nodes.items.flatMap fun n => n.targets.map fun t => (n.id, t)

/-- The edges that lead to no node of the flow. -/
def dangling (f : Flow) : List (String × String) := f.references.filter fun r => !f.hasNode r.2

/-- The nodes that a node leads to, each once, in the order of its edges. -/
def successors (f : Flow) (id : String) : List String :=
  match f.node? id with
  | some n => (n.targets.filter f.hasNode).eraseDups
  | none => []

/-! ## Search in breadth -/

/-- One round after another, adds the nodes that the last round leads to and
that were not found before; `level` is the distance of the last round. -/
def explore (next : String → List String) :
    (rounds level : Nat) → (found : List (String × Nat)) → (frontier : List String) →
      List (String × Nat)
  | 0, _, found, _ => found
  | rounds + 1, level, found, frontier =>
    let fresh := (frontier.flatMap next).eraseDups.filter fun t => !(found.map Prod.fst).contains t
    explore next rounds (level + 1) (found ++ fresh.map fun t => (t, level + 1)) fresh

/-- The nodes that can be reached from a start, with the number of edges of
the shortest way; none if there is no such node. -/
def levels (f : Flow) (start : String) : List (String × Nat) :=
  if f.hasNode start then explore f.successors f.size 0 [(start, 0)] [start] else []

/-- The nodes that can be reached from a start. -/
def reachable (f : Flow) (start : String) : List String := (f.levels start).map Prod.fst

/-! ## Search in depth -/

/-- What a search in depth has seen: the nodes it entered, and those at which
it met its own path. -/
structure Search where
  entered : List String
  closing : List String
  deriving DecidableEq, Repr

/-- Enters a node that was not entered before.  `path` holds the nodes between
the root of the search and this one. -/
def enter (next : String → List String) :
    (depth : Nat) → (path : List String) → Search → (id : String) → Search
  | 0, _, s, _ => s
  | depth + 1, path, s, id =>
    (next id).foldl
      (fun s t =>
        if (id :: path).contains t then
          { s with closing := if s.closing.contains t then s.closing else s.closing ++ [t] }
        else if s.entered.contains t then s
        else enter next depth (id :: path) s t)
      { s with entered := id :: s.entered }

/-- Searches from every root that no earlier search entered. -/
def searchFrom (next : String → List String) (depth : Nat) (roots : List String) : Search :=
  roots.foldl (fun s r => if s.entered.contains r then s else enter next depth [] s r) ⟨[], []⟩

/-- The order in which searches start: `first`, if it is a node, then the
nodes as declared. -/
def roots (f : Flow) (first : Option String) : List String :=
  match first with
  | some r => if f.hasNode r then r :: f.nodes.keys.erase r else f.nodes.keys
  | none => f.nodes.keys

/-- The nodes at which a search in depth meets its own path, in the order of
discovery, each once. -/
def cycleNodes (f : Flow) (first : Option String) : List String :=
  (searchFrom f.successors f.size (f.roots first)).closing

/-! ## Small laws -/

/-- Successors are nodes of the flow. -/
theorem hasNode_of_mem_successors {f : Flow} {id t : String} (h : t ∈ f.successors id) :
    f.hasNode t = true := by
  rw [successors] at h
  split at h
  · rw [List.mem_eraseDups, List.mem_filter] at h
    exact h.2
  · simp at h

/-- Every node is the root of a search, whatever node comes first. -/
theorem mem_roots {f : Flow} {first : Option String} {id : String} :
    id ∈ f.roots first ↔ id ∈ f.nodes.keys := by
  unfold roots
  split
  · rename_i r
    split
    · rename_i hr
      have hr' : r ∈ f.nodes.keys := KeyedList.contains_iff.mp hr
      by_cases h : id = r
      · simp [h, hr']
      · simp [h, List.mem_erase_of_ne h]
    · exact Iff.rfl
  · exact Iff.rfl

end UssdFlows.Flow
