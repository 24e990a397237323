import UssdFlows.Proofs.Flow.Verdict
import UssdFlows.Proofs.Interpretation

/-!
# What a turn comes to, without its stages

A turn is played stage by stage.  What it comes to can be said at once, in terms
of the flow alone:

* From the node where it arrives a session *settles* (`Flow.Settles`): it goes on
  along conditionals, each of which is evaluated on the variables, to the first
  node that is none, or it is completed at a conditional that leads nowhere.
* An outcome of the node where the session rests is *followed* (`Flow.Follows`):
  an error leaves the session and its variables as they are; otherwise what was
  captured is stored first, and then the session is completed, or moves and
  settles.

In a flow that is well-formed both have exactly one end (`Settles.unique` and
`WellFormed.exists_settles`, `Follows.unique` and `WellFormed.exists_follows`).
-/

namespace UssdFlows

/-- How a turn ends for its session. -/
inductive Ending where
  /-- The session stays at its node, where the message is shown. -/
  | refused (n : Node) (message : String)
  /-- The session awaits input at a node. -/
  | rests (n : Node)
  /-- The session is completed at a node. -/
  | completed (n : Node)

/-- The node at which the session is in the end. -/
def Ending.node : Ending → Node
  | refused n _ | rests n | completed n => n

namespace Flow

/-- From a node on a session with these variables passes through some nodes, and that
is how it ends. -/
inductive Settles (f : Flow) (bindings : Dict String) : Node → List Node → Ending → Prop
  | rests {n : Node} (h : n.isTransient = false) : Settles f bindings n [] (.rests n)
  | ends {n : Node} {c : Condition} {b : Branches} {next : Option String}
      (h : n.behaviour = .conditional c b next)
      (hedge : (if c.holds bindings then b.success else b.failure).or next = none) :
      Settles f bindings n [] (.completed n)
  | leads {n m : Node} {c : Condition} {b : Branches} {next : Option String} {target : String}
      {path : List Node} {ending : Ending} (h : n.behaviour = .conditional c b next)
      (hedge : (if c.holds bindings then b.success else b.failure).or next = some target)
      (hm : f.node? target = some m) (hrest : Settles f bindings m path ending) :
      Settles f bindings n (m :: path) ending

/-- The message that is shown for an error. -/
def shownMessage (message : String) : String := if message = "" then "Unexpected error" else message

/-- What an outcome of a node leads to for a session with these variables: the variables
it has in the end, the nodes it passes through, and how that ends. -/
inductive Follows (f : Flow) (n : Node) (bindings : Dict String) (o : Outcome) :
    Dict String → List Node → Ending → Prop
  | stays {message : String} (h : o.move = .stay message) :
      Follows f n bindings o bindings [] (.refused n (shownMessage message))
  | ends (h : o.move = .finish) :
      Follows f n bindings o (bindings.putAll o.captured.items) [] (.completed n)
  | goes {m : Node} {target : String} {path : List Node} {ending : Ending}
      (h : o.move = .to target) (hm : f.node? target = some m)
      (hsettles : f.Settles (bindings.putAll o.captured.items) m path ending) :
      Follows f n bindings o (bindings.putAll o.captured.items) (m :: path) ending

variable {f : Flow} {n : Node} {bindings bindings' bindings'' : Dict String} {o : Outcome}
  {path path' : List Node} {ending ending' : Ending}

/-! ## One end at most -/

/-- At a conditional nobody rests. -/
theorem isTransient_of_conditional {c : Condition} {b : Branches} {next : Option String}
    (h : n.behaviour = .conditional c b next) : n.isTransient = true := by
  rw [Node.isTransient, Node.kind, h]
  rfl

theorem Settles.unique (h : f.Settles bindings n path ending)
    (h' : f.Settles bindings n path' ending') : path = path' ∧ ending = ending' := by
  induction h generalizing path' ending' with
  | rests hn =>
      cases h' with
      | rests => exact ⟨rfl, rfl⟩
      | ends hb => exact absurd hn (by simp [isTransient_of_conditional hb])
      | leads hb => exact absurd hn (by simp [isTransient_of_conditional hb])
  | ends hb hedge =>
      cases h' with
      | rests hn => exact absurd hn (by simp [isTransient_of_conditional hb])
      | ends => exact ⟨rfl, rfl⟩
      | leads hb' hedge' =>
          cases hb.symm.trans hb'
          cases hedge.symm.trans hedge'
  | leads hb hedge hm _ ih =>
      cases h' with
      | rests hn => exact absurd hn (by simp [isTransient_of_conditional hb])
      | ends hb' hedge' =>
          cases hb.symm.trans hb'
          cases hedge.symm.trans hedge'
      | leads hb' hedge' hm' hrest' =>
          cases hb.symm.trans hb'
          cases hedge.symm.trans hedge'
          cases hm.symm.trans hm'
          obtain ⟨rfl, rfl⟩ := ih hrest'
          exact ⟨rfl, rfl⟩

theorem Follows.unique (h : f.Follows n bindings o bindings' path ending)
    (h' : f.Follows n bindings o bindings'' path' ending') :
    bindings' = bindings'' ∧ path = path' ∧ ending = ending' := by
  cases h with
  | stays hmove =>
      cases h' with
      | stays hmove' =>
          cases hmove.symm.trans hmove'
          exact ⟨rfl, rfl, rfl⟩
      | ends hmove' => cases hmove.symm.trans hmove'
      | goes hmove' => cases hmove.symm.trans hmove'
  | ends hmove =>
      cases h' with
      | stays hmove' => cases hmove.symm.trans hmove'
      | ends => exact ⟨rfl, rfl, rfl⟩
      | goes hmove' => cases hmove.symm.trans hmove'
  | goes hmove hm hsettles =>
      cases h' with
      | stays hmove' => cases hmove.symm.trans hmove'
      | ends hmove' => cases hmove.symm.trans hmove'
      | goes hmove' hm' hsettles' =>
          cases hmove.symm.trans hmove'
          cases hm.symm.trans hm'
          obtain ⟨rfl, rfl⟩ := hsettles.unique hsettles'
          exact ⟨rfl, rfl, rfl⟩

/-! ## One end at least -/

/-- A node is found by its own name. -/
theorem node?_id_of_node? {a : String} (h : f.node? a = some n) : f.node? n.id = some n := by
  rw [show n.id = a from KeyedList.key_of_find? h, h]

/-- Where an outcome leads there is a node, and it is nearer to the end. -/
theorem WellFormed.exists_target (h : f.WellFormed) (hn : f.node? n.id = some n) {input : String}
    {result : ActionResult} {target : String}
    (ho : n.interpret bindings input result = .ok o) (ht : o.move = .to target) :
    ∃ m, f.node? target = some m ∧ f.node? m.id = some m ∧ f.rank m.id < f.rank n.id := by
  have htarget : target ∈ n.targets :=
    Node.target_mem_of_interpret ho (by rw [Outcome.target?, ht])
  have hhas := h.targets_exist n (KeyedList.mem_of_find? hn) target htarget
  have hedge := edge_of_node? hn htarget hhas
  rw [hasNode, KeyedList.contains, Option.isSome_iff_exists] at hhas
  obtain ⟨m, hm⟩ := hhas
  obtain rfl : m.id = target := KeyedList.key_of_find? hm
  exact ⟨m, hm, hm, rank_lt_of_edge h.acyclic hedge⟩

/-- The same for a conditional. -/
theorem WellFormed.exists_branch (h : f.WellFormed) (hn : f.node? n.id = some n) {c : Condition}
    {b : Branches} {next : Option String} {target : String}
    (hb : n.behaviour = .conditional c b next)
    (hedge : (if c.holds bindings then b.success else b.failure).or next = some target) :
    ∃ m, f.node? target = some m ∧ f.node? m.id = some m ∧ f.rank m.id < f.rank n.id := by
  have ho : n.interpret bindings "" (.failed "") =
      .ok ⟨.to target, .empty, .ofList [("condition_matched", .bool (c.holds bindings))]⟩ := by
    rw [Node.interpret_conditional hb, Handler.branch_eq, hedge]
    rfl
  exact h.exists_target hn ho rfl

/-- Conditionals lead to an end: each step is one to a node of lower rank. -/
theorem WellFormed.exists_settles (h : f.WellFormed) (hn : f.node? n.id = some n)
    (bindings : Dict String) : ∃ path ending, f.Settles bindings n path ending := by
  induction hrank : f.rank n.id using Nat.strongRecOn generalizing n with
  | _ k ih =>
      cases hb : n.behaviour with
      | conditional c b next =>
          cases hedge : (if c.holds bindings then b.success else b.failure).or next with
          | none => exact ⟨[], .completed n, .ends hb hedge⟩
          | some target =>
              obtain ⟨m, hm, hself, hless⟩ := h.exists_branch hn hb hedge
              obtain ⟨path, ending, hrest⟩ := ih _ (hrank ▸ hless) hself rfl
              exact ⟨m :: path, ending, .leads hb hedge hm hrest⟩
      | _ => exact ⟨[], .rests n, .rests (by rw [Node.isTransient, Node.kind, hb]; rfl)⟩

theorem WellFormed.exists_follows (h : f.WellFormed) (hn : f.node? n.id = some n) {input : String}
    {result : ActionResult} (ho : n.interpret bindings input result = .ok o) :
    ∃ bindings' path ending, f.Follows n bindings o bindings' path ending := by
  rcases hmove : o.move with target | - | message
  · obtain ⟨m, hm, hself, -⟩ := h.exists_target hn ho hmove
    obtain ⟨path, ending, hsettles⟩ := h.exists_settles hself (bindings.putAll o.captured.items)
    exact ⟨_, _, _, .goes hmove hm hsettles⟩
  · exact ⟨_, _, _, .ends hmove⟩
  · exact ⟨_, _, _, .stays hmove⟩

end Flow

end UssdFlows
