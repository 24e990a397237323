import Mathlib.Computability.StateTransition
import Mathlib.Data.List.Chain
import UssdFlows.Proofs.Flow.Cycles

/-!
# The search in depth as a loop

`Flow.cycleNodes` is written as a recursion that is cut off at a depth.  It can
as well be done by a loop (`Descent.next?`) that keeps the path of the search on
a stack, each node with those successors that are still to be looked at, beside
the set of the nodes on the stack and the set of those visited.

* The loop comes to an end, and then it has found what the recursion reports
  (`mem_eval_descent`).  So the recursion is never cut off, and the set beside
  the stack always holds the nodes on it.
* What it finds *hits* the cycles of the flow (`cycleNodes_hit`): all of it lies
  on cycles (`Flow.IsCycle`), every cycle runs through some of it, and nothing is
  found twice.  It does not matter from which node the search starts.
-/

namespace UssdFlows.Flow

open Relation StateTransition

/-! ## The loop -/

/-- Where the loop stands. -/
structure Descent where
  /-- The roots from which it has not started yet. -/
  roots : List String
  /-- The path from the present root, the last node first, each node with the
  successors that have not been looked at. -/
  stack : List (String × List String)
  /-- The nodes on the stack. -/
  onStack : List String
  seen : Search
  deriving DecidableEq, Repr

namespace Descent

/-- Nothing has been visited. -/
def start (roots : List String) : Descent := ⟨roots, [], [], ⟨[], []⟩⟩

/-- All roots are done. -/
def finished (seen : Search) : Descent := ⟨[], [], [], seen⟩

/-- Visits a node: it is put on the stack with all its successors. -/
def visit (next : String → List String) (d : Descent) (id : String) : Descent :=
  { d with
    stack := (id, next id) :: d.stack
    onStack := id :: d.onStack
    seen := { d.seen with entered := id :: d.seen.entered } }

/-- One round of the loop; nothing is left to do when all roots are done. -/
def next? (next : String → List String) : Descent → Option Descent
  | ⟨[], [], _, _⟩ => none
  | ⟨r :: roots, [], onStack, seen⟩ =>
    let d : Descent := ⟨roots, [], onStack, seen⟩
    some (if seen.entered.contains r then d else d.visit next r)
  | ⟨roots, (id, []) :: stack, onStack, seen⟩ => some ⟨roots, stack, onStack.erase id, seen⟩
  | ⟨roots, (id, t :: ts) :: stack, onStack, seen⟩ =>
    let d : Descent := ⟨roots, (id, ts) :: stack, onStack, seen⟩
    some (
      if onStack.contains t then { d with seen := seen.report t }
      else if seen.entered.contains t then d
      else d.visit next t)

end Descent

/-! ## The loop does what the recursion does -/

section Loop

variable {next : String → List String} {nodes : List String} {depth : Nat} {path : List String}
  {roots : List String} {stack : List (String × List String)} {id : String}

/-- Nodes that are visited one after another, with the last node of the path on the
stack, are probed. -/
theorem reaches_foldl_probe
    (henter : ∀ (s : Search) (t : String) (ts : List String), t ∈ nodes → t ∉ path →
      Reaches (Descent.next? next) ((⟨roots, (id, ts) :: stack, path, s⟩ : Descent).visit next t)
        ⟨roots, (id, ts) :: stack, path, enter next depth path s t⟩)
    {ts : List String} (hts : ∀ t ∈ ts, t ∈ nodes) (s : Search) :
    Reaches (Descent.next? next) ⟨roots, (id, ts) :: stack, path, s⟩
      ⟨roots, (id, []) :: stack, path, ts.foldl (probe next depth path) s⟩ := by
  induction ts generalizing s with
  | nil => exact .refl
  | cons t rest ih =>
      rw [List.foldl_cons]
      have hrest := ih (fun u hu => hts u (List.mem_cons_of_mem _ hu)) (probe next depth path s t)
      refine ReflTransGen.trans ?_ hrest
      unfold probe
      by_cases hc : path.contains t = true
      · rw [if_pos hc]
        refine .single ?_
        simp only [Descent.next?, if_pos hc, Option.mem_some_iff]
      · rw [if_neg hc]
        by_cases he : s.entered.contains t = true
        · rw [if_pos he]
          refine .single ?_
          simp only [Descent.next?, if_neg hc, if_pos he, Option.mem_some_iff]
        · rw [if_neg he]
          have hpath : t ∉ path := fun h => hc (List.contains_iff_mem.2 h)
          refine .head ?_ (henter s t rest (hts t (List.mem_cons_self ..)) hpath)
          simp only [Descent.next?, if_neg hc, if_neg he, Option.mem_some_iff]

variable (hnext : ∀ a, ∀ t ∈ next a, t ∈ nodes)

include hnext in
/-- A node that is visited is taken from the stack again, and meanwhile the search
has entered it. -/
theorem reaches_enter (hnodup : (id :: path).Nodup) (hsub : ∀ a ∈ id :: path, a ∈ nodes)
    (hdepth : nodes.length ≤ path.length + depth) (s : Search) :
    Reaches (Descent.next? next) ((⟨roots, stack, path, s⟩ : Descent).visit next id)
      ⟨roots, stack, path, enter next depth path s id⟩ := by
  induction depth generalizing path s id stack with
  | zero => exact absurd (depth_pos hnodup hsub hdepth) (Nat.lt_irrefl 0)
  | succ depth ih =>
      have henter : ∀ (s : Search) (t : String) (ts : List String), t ∈ nodes → t ∉ id :: path →
          Reaches (Descent.next? next)
            ((⟨roots, (id, ts) :: stack, id :: path, s⟩ : Descent).visit next t)
            ⟨roots, (id, ts) :: stack, id :: path, enter next depth (id :: path) s t⟩ := by
        intro s t ts ht hpath
        refine ih (List.nodup_cons.2 ⟨hpath, hnodup⟩) ?_ ?_ s
        · intro a ha
          rcases List.mem_cons.1 ha with rfl | ha
          · exact ht
          · exact hsub a ha
        · rw [List.length_cons]
          omega
      rw [enter_succ]
      refine (reaches_foldl_probe henter (hnext id) _).tail ?_
      simp only [Descent.next?, List.erase_cons_head, Option.mem_some_iff]

include hnext in
/-- The loop goes through the roots one after the other. -/
theorem reaches_roots (hroots : ∀ r ∈ roots, r ∈ nodes) (hdepth : nodes.length ≤ depth)
    (s : Search) : Reaches (Descent.next? next) ⟨roots, [], [], s⟩
      (.finished (roots.foldl (probe next depth []) s)) := by
  induction roots generalizing s with
  | nil => exact .refl
  | cons r rest ih =>
      refine ReflTransGen.trans ?_
        (ih (fun u hu => hroots u (List.mem_cons_of_mem _ hu)) (probe next depth [] s r))
      rw [probe, if_neg (by simp)]
      by_cases he : s.entered.contains r = true
      · rw [if_pos he]
        refine .single ?_
        simp only [Descent.next?, if_pos he, Option.mem_some_iff]
      · rw [if_neg he]
        refine .head ?_ (reaches_enter hnext (List.nodup_singleton r) (fun a ha => ?_)
          (by simpa using hdepth) s)
        · simp only [Descent.next?, if_neg he, Option.mem_some_iff]
        · rw [List.mem_singleton.1 ha]
          exact hroots r (List.mem_cons_self ..)

include hnext in
/-- **The loop ends.**  From whatever roots it starts, it comes to an end, and then it
has seen what the recursion has seen. -/
theorem mem_eval_descent (hroots : ∀ r ∈ roots, r ∈ nodes) (hdepth : nodes.length ≤ depth) :
    Descent.finished (searchFrom next depth roots) ∈
      eval (Descent.next? next) (Descent.start roots) :=
  mem_eval.2 ⟨reaches_roots hnext hroots hdepth ⟨[], []⟩, rfl⟩

end Loop

/-! ## Cycles -/

/-- A directed cycle: each node of a list leads to the next one, and the last one to
the first. -/
def IsCycle (f : Flow) : List String → Prop
  | [] => False
  | a :: rest => List.IsChain f.Edge (a :: rest ++ [a])

/-- From the first node of a chain there is a way to the last one. -/
theorem transGen_of_isChain {r : String → String → Prop} {a b : String} {rest : List String}
    (h : List.IsChain r (a :: rest ++ [b])) : TransGen r a b := by
  induction rest generalizing a with
  | nil => exact .single (List.isChain_cons_cons.1 h).1
  | cons c rest ih =>
      obtain ⟨hac, hrest⟩ := List.isChain_cons_cons.1 h
      exact .head hac (ih hrest)

/-- A node that leads back to itself lies on a cycle. -/
theorem exists_isCycle_of_transGen {f : Flow} {a : String} (h : TransGen f.Edge a a) :
    ∃ c, f.IsCycle c ∧ a ∈ c := by
  obtain ⟨b, hab, hba⟩ := TransGen.head'_iff.1 h
  obtain ⟨rest, hchain, hlast⟩ := List.exists_isChain_cons_of_relationReflTransGen hba
  refine ⟨a :: (b :: rest).dropLast, ?_, List.mem_cons_self ..⟩
  show List.IsChain f.Edge (a :: ((b :: rest).dropLast ++ [a]))
  rw [show (b :: rest).dropLast ++ [a] = b :: rest by
    rw [← hlast]; exact List.dropLast_append_getLast _]
  exact .cons_cons hab hchain

/-- A chain whose nodes all have a property is one of steps to nodes with it. -/
theorem isChain_and_of_forall {r : String → String → Prop} {p : String → Prop} {a : String}
    {l : List String} (h : List.IsChain r (a :: l)) (hp : ∀ b ∈ l, p b) :
    List.IsChain (fun a b => r a b ∧ p b) (a :: l) := by
  induction l generalizing a with
  | nil => exact .singleton a
  | cons b l ih =>
      obtain ⟨hab, hrest⟩ := List.isChain_cons_cons.1 h
      exact .cons_cons ⟨hab, hp b (List.mem_cons_self ..)⟩
        (ih hrest fun c hc => hp c (List.mem_cons_of_mem _ hc))

theorem acyclic_iff_forall_not_isCycle {f : Flow} : f.Acyclic ↔ ∀ c, ¬ f.IsCycle c := by
  constructor
  · rintro h (- | ⟨a, rest⟩) hc
    · exact hc
    · exact h a (transGen_of_isChain hc)
  · intro h a hcycle
    obtain ⟨c, hc, -⟩ := exists_isCycle_of_transGen hcycle
    exact h c hc

/-- Every cycle runs through a node that is reported. -/
theorem exists_mem_closing_of_isCycle {f : Flow} {roots : List String}
    (hroots : ∀ a, a ∈ roots ↔ a ∈ f.nodes.keys) {c : List String} (hc : f.IsCycle c) :
    ∃ a ∈ c, a ∈ (searchFrom f.successors f.size roots).closing := by
  by_contra hnone
  push Not at hnone
  obtain _ | ⟨a, rest⟩ := c
  · exact hc
  · refine not_transGen_avoiding hroots a (transGen_of_isChain (isChain_and_of_forall hc ?_))
    intro b hb
    rcases List.mem_append.1 hb with hb | hb
    · exact hnone b (List.mem_cons_of_mem _ hb)
    · rw [List.mem_singleton.1 hb]
      exact hnone a (List.mem_cons_self ..)

/-- **Cycles are hit.**  Whatever node it starts from, the search for cycles comes to
an end.  Every node that it reports lies on a directed cycle, every directed
cycle runs through a node that it reports, and no node is reported twice.  It
reports nothing exactly if there is no directed cycle, and this holds for any
order of the nodes as roots. -/
theorem cycleNodes_hit (f : Flow) (first : Option String) :
    (∃ seen, Descent.finished seen ∈
        eval (Descent.next? f.successors) (Descent.start (f.roots first)) ∧
      seen.closing = f.cycleNodes first) ∧
    (∀ a ∈ f.cycleNodes first, ∃ c, f.IsCycle c ∧ a ∈ c) ∧
    (∀ c, f.IsCycle c → ∃ a ∈ c, a ∈ f.cycleNodes first) ∧
    (f.cycleNodes first).Nodup ∧
    (f.cycleNodes first = [] ↔ ∀ c, ¬ f.IsCycle c) ∧
    ∀ roots, roots.Perm f.nodes.keys →
      ((searchFrom f.successors f.size roots).closing = [] ↔ ∀ c, ¬ f.IsCycle c) := by
  have hkeys : ∀ r ∈ f.roots first, r ∈ f.nodes.keys := fun r => mem_roots.1
  have hloop := mem_eval_descent f.mem_keys_of_mem_successors hkeys f.length_keys_le_size
  refine ⟨⟨_, hloop, rfl⟩, fun a ha => exists_isCycle_of_transGen (transGen_of_mem_closing ha),
    fun c => exists_mem_closing_of_isCycle fun _ => mem_roots, f.nodup_cycleNodes first, ?_, ?_⟩
  · rw [cycleNodes_eq_nil_iff, acyclic_iff_forall_not_isCycle]
  · intro roots hperm
    rw [closing_eq_nil_iff fun _ => hperm.mem_iff, acyclic_iff_forall_not_isCycle]

end UssdFlows.Flow
