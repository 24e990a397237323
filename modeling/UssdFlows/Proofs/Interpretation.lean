import UssdFlows.Handler

/-!
# What comes out of interpreting an input

Every node has a handler of its own (`Node.interpret`).  This file says, kind
by kind, what that handler makes of an input, and draws four conclusions.

* An outcome leaves the session at its node with nothing captured, or passes it on with
  what the node captures (`Node.stays_or_passesOn`).
* Whatever a node leads to is one of its own edges (`target_mem_of_interpret`), and a
  session ends at an end node or along an edge that leads to none (`Node.Allows`).
* A conditional node always leads on: to a node, or to the end
  (`interpret_of_isTransient`).
* An interpretation has no outcome exactly if the node *refuses* it
  (`interpret_error_iff`): an acceptable input is to be captured under a
  reserved name, or the result of an action cannot be stored
  (`Node.Refuses`).
-/

namespace UssdFlows

/-! ## Following an edge -/

/-- The move along an edge: to its node, or to the end. -/
def Move.along : Option String → Move
  | some node => .to node
  | none => .finish

namespace Outcome

/-- A name is reserved on the way along an edge. -/
def IsReserved (target : Option String) (name : String) : Prop :=
  name = "cls" ∨ name = "node_id" ∧ target ≠ none

theorem unlessReserved_of_forall {α : Type} {names : List String} {d : Dict α} (o : Outcome)
    (h : ∀ n ∈ names, d.contains n = false) : unlessReserved names d o = .ok o := by
  have hnone : reserved? names d = none := by
    rw [reserved?, List.find?_eq_none]
    intro n hn
    simp [h n hn]
  rw [unlessReserved, hnone]

theorem unlessReserved_of_mem {α : Type} {names : List String} {d : Dict α} (o : Outcome)
    {n : String} (hn : n ∈ names) (h : d.contains n = true) :
    ∃ name, unlessReserved names d o = .error (.reservedName name) := by
  cases hr : reserved? names d with
  | none =>
      rw [reserved?, List.find?_eq_none] at hr
      exact absurd h (hr n hn)
  | some name => exact ⟨name, by rw [unlessReserved, hr]⟩

/-- Without reserved names an edge is followed to where it leads. -/
theorem follow_eq_ok {target : Option String} {captured : Dict String}
    (h : ∀ name, IsReserved target name → captured.contains name = false) :
    follow target captured = .ok ⟨.along target, captured, .empty⟩ := by
  cases target with
  | none =>
      refine unlessReserved_of_forall _ fun n hn => ?_
      rw [List.mem_singleton] at hn
      exact h n (Or.inl hn)
  | some node =>
      refine unlessReserved_of_forall _ fun n hn => ?_
      rcases List.mem_cons.1 hn with rfl | hn
      · exact h "cls" (Or.inl rfl)
      · rw [List.mem_singleton] at hn
        exact h n (Or.inr ⟨hn, by simp⟩)

/-- A reserved name keeps an edge from being followed. -/
theorem follow_eq_error {target : Option String} {captured : Dict String} {name : String}
    (h : IsReserved target name) (hc : captured.contains name = true) :
    ∃ n, follow target captured = .error (.reservedName n) := by
  cases target with
  | none =>
      rcases h with rfl | ⟨-, hne⟩
      · exact unlessReserved_of_mem _ (List.mem_singleton_self _) hc
      · exact absurd rfl hne
  | some node =>
      rcases h with rfl | ⟨rfl, -⟩
      · exact unlessReserved_of_mem _ (by simp) hc
      · exact unlessReserved_of_mem _ (by simp) hc

end Outcome

namespace Handler

open Outcome

theorem followWith_eq_ok {target : Option String} {captured : Dict String}
    {metadata : List (String × Value)}
    (h : ∀ name, IsReserved target name → captured.contains name = false) :
    followWith target captured metadata =
      .ok ⟨.along target, captured, KeyedList.empty.putAll metadata⟩ := by
  rw [followWith, follow_eq_ok h]
  rfl

theorem followWith_eq_error {target : Option String} {captured : Dict String} {name : String}
    (metadata : List (String × Value)) (h : IsReserved target name)
    (hc : captured.contains name = true) :
    ∃ n, followWith target captured metadata = .error (.outcome (.reservedName n)) := by
  obtain ⟨n, hn⟩ := follow_eq_error h hc
  exact ⟨n, by rw [followWith, hn]; rfl⟩

/-- If an edge was followed, the session goes along it and captures what it was
to capture. -/
theorem followWith_ok {target : Option String} {captured : Dict String}
    {metadata : List (String × Value)} {o : Outcome}
    (h : followWith target captured metadata = .ok o) :
    o.move = .along target ∧ o.captured = captured := by
  by_cases hfree : ∀ name, IsReserved target name → captured.contains name = false
  · rw [followWith_eq_ok hfree] at h
    cases h
    exact ⟨rfl, rfl⟩
  · obtain ⟨name, hname⟩ := Classical.not_forall.1 hfree
    obtain ⟨hname, hc⟩ := Classical.not_imp.1 hname
    rw [Bool.not_eq_false] at hc
    obtain ⟨n, hn⟩ := followWith_eq_error metadata hname hc
    rw [hn] at h
    cases h

end Handler

/-! ## The interpretation at each kind of node -/

namespace InputSpec

/-- An input that is captured: it is not blank if one is required, and the whole
of it matches the pattern. -/
def Accepts (spec : InputSpec) (input : String) : Prop :=
  (spec.isRequired = true → Text.strip input ≠ "") ∧ ∀ p ∈ spec.pattern, p.accepts input = true

end InputSpec

namespace Node

open Outcome

/-- What the handler of a node makes of an input; `result` is the result of the
node's action, should it have one. -/
def interpret (n : Node) (bindings : Dict String) (input : String) (result : ActionResult) :
    Except HandlerError Outcome :=
  (Handler.ofKind n.kind).handle n bindings input result

variable {n : Node} {bindings : Dict String} {input : String} {result : ActionResult}

/-- The handler of a node has an action carried out exactly for action nodes. -/
theorem runsAction_ofKind (n : Node) : (Handler.ofKind n.kind).runsAction n = n.isAction := by
  obtain ⟨id, text, b⟩ := n
  cases b <;> rfl

theorem interpret_menu {options : List MenuOption} (h : n.behaviour = .menu options) :
    n.interpret bindings input result = Handler.choose n input := by
  simp only [interpret, kind, Handler.ofKind, Handler.handle, h]

theorem interpret_input {spec : InputSpec} {next : Option String}
    (h : n.behaviour = .input spec next) :
    n.interpret bindings input result = Handler.captureInput spec next input := by
  simp only [interpret, kind, Handler.ofKind, Handler.handle, h]

theorem interpret_conditional {c : Condition} {b : Branches} {next : Option String}
    (h : n.behaviour = .conditional c b next) :
    n.interpret bindings input result = Handler.branch c b next bindings := by
  simp only [interpret, kind, Handler.ofKind, Handler.handle, h]

theorem interpret_terminal (h : n.behaviour = .terminal) :
    n.interpret bindings input result = .ok ⟨.finish, .empty, .empty⟩ := by
  simp only [interpret, kind, Handler.ofKind, Handler.handle, h]
  rfl

/-- Where an action node leads; other nodes have no such branches. -/
def branches? (n : Node) : Option Branches :=
  match n.behaviour with
  | .payment b _ _ => some b
  | .api b _ _ => some b
  | _ => none

theorem isAction_iff_branches? {n : Node} : n.isAction = true ↔ ∃ b, n.branches? = some b := by
  obtain ⟨id, text, b⟩ := n
  cases b <;> simp [isAction, kind, branches?]

theorem interpret_action {b : Branches} (h : n.branches? = some b) :
    n.interpret bindings input result = Handler.afterAction n.id b result := by
  rw [branches?] at h
  split at h <;> simp only [Option.some.injEq, reduceCtorEq] at h
  all_goals
    rename_i heq
    subst h
    simp only [interpret, kind, Handler.ofKind, Handler.handle, heq]

theorem edges_of_branches? {b : Branches} (h : n.branches? = some b) :
    n.edges = [b.success, b.failure] := by
  rw [branches?] at h
  split at h <;> simp only [Option.some.injEq, reduceCtorEq] at h
  all_goals
    rename_i heq
    subst h
    simp only [edges, heq]

end Node

namespace Handler

/-! ### Menus and inputs -/

theorem choose_of_none {n : Node} {input : String} (h : n.option? (Text.strip input) = none) :
    choose n input = .ok ⟨.stay "Invalid option selected", .empty,
      .ofList [("selected", .text input)]⟩ := by
  rw [choose, h]
  rfl

theorem choose_of_some {n : Node} {input : String} {o : MenuOption}
    (h : n.option? (Text.strip input) = some o) :
    choose n input = .ok ⟨.along o.target, .empty, .ofList [("selected_option", .text o.key)]⟩ := by
  rw [choose, h]
  exact followWith_eq_ok fun _ _ => rfl

theorem captureInput_of_accepts {spec : InputSpec} {next : Option String} {input : String}
    (h : spec.Accepts input) :
    captureInput spec next input = followWith next (.ofList [(spec.variableName, input)]) [] := by
  have hblank : (spec.isRequired && Text.strip input == "") = false := by
    rw [Bool.and_eq_false_iff, beq_eq_false_iff_ne]
    by_cases hr : spec.isRequired = true
    · exact Or.inr (h.1 hr)
    · exact Or.inl (Bool.not_eq_true _ ▸ hr)
  rw [captureInput, hblank, if_neg Bool.false_ne_true]
  cases hp : spec.pattern with
  | none => rfl
  | some p =>
      have : p.accepts input = true := h.2 p hp
      simp only [this, if_true]

/-- An input that is not accepted leaves the session where it is. -/
theorem captureInput_of_not_accepts {spec : InputSpec} {input : String}
    (next : Option String) (h : ¬ spec.Accepts input) :
    ∃ message metadata,
      captureInput spec next input = .ok ⟨.stay message, .empty, metadata⟩ := by
  by_cases hblank : (spec.isRequired && Text.strip input == "") = true
  · rw [captureInput, if_pos hblank]
    exact ⟨_, _, rfl⟩
  · rw [captureInput, if_neg hblank]
    cases hp : spec.pattern with
    | none =>
        refine absurd ⟨fun hr => ?_, fun p hmem => ?_⟩ h
        · rw [hr, Bool.true_and, beq_iff_eq] at hblank
          exact hblank
        · rw [hp] at hmem
          cases hmem
    | some p =>
        by_cases ha : p.accepts input = true
        · refine absurd ⟨fun hr => ?_, fun q hmem => ?_⟩ h
          · rw [hr, Bool.true_and, beq_iff_eq] at hblank
            exact hblank
          · rw [hp] at hmem
            cases hmem
            exact ha
        · simp only [if_neg ha]
          exact ⟨_, _, rfl⟩

/-! ### Conditionals -/

theorem branch_eq (c : Condition) (b : Branches) (next : Option String) (bindings : Dict String) :
    branch c b next bindings =
      .ok ⟨.along ((if c.holds bindings then b.success else b.failure).or next), .empty,
        .ofList [("condition_matched", .bool (c.holds bindings))]⟩ :=
  followWith_eq_ok fun _ _ => rfl

end Handler

/-! ### Actions -/

namespace ActionResult

/-- Some number among the data has too many digits to be stored. -/
def HasOverlong (r : ActionResult) : Prop := ∃ e ∈ r.data, isOverlong e.2 = true

instance (r : ActionResult) : Decidable r.HasOverlong :=
  inferInstanceAs (Decidable (∃ e ∈ r.data, isOverlong e.2 = true))

/-- The data hold a scalar under `id`. -/
def HasId (r : ActionResult) : Prop := ∃ e ∈ r.data, e.1 = "id" ∧ isScalar e.2 = true

instance (r : ActionResult) : Decidable r.HasId :=
  inferInstanceAs (Decidable (∃ e ∈ r.data, e.1 = "id" ∧ isScalar e.2 = true))

/-- If a character occurs once in a text, a text around that character is
determined on both sides. -/
theorem append_cons_inj {c : Char} {xs ys zs ws : List Char} (hz : c ∉ zs) (hw : c ∉ ws)
    (h : xs ++ c :: ys = zs ++ c :: ws) : xs = zs ∧ ys = ws := by
  induction xs generalizing zs with
  | nil =>
      cases zs with
      | nil =>
          cases h
          exact ⟨rfl, rfl⟩
      | cons z rest =>
          cases h
          exact absurd (List.mem_cons_self ..) hz
  | cons x more ih =>
      cases zs with
      | nil =>
          cases h
          exact absurd (List.mem_append_right more (List.mem_cons_self ..)) hw
      | cons z rest =>
          rw [List.cons_append, List.cons_append, List.cons.injEq] at h
          obtain ⟨rfl, h⟩ := h
          obtain ⟨rfl, rfl⟩ := ih (fun hc => hz (List.mem_cons_of_mem _ hc)) h
          exact ⟨rfl, rfl⟩

/-- A variable of a node is called `node_id` exactly if the node is called
`node` and the variable stands for its datum `id`. -/
theorem variable_eq_node_id_iff {nodeId key : String} :
    nodeId ++ "_" ++ key = "node_id" ↔ nodeId = "node" ∧ key = "id" := by
  constructor
  · intro h
    have hlist : nodeId.toList ++ '_' :: key.toList = "node".toList ++ '_' :: "id".toList := by
      have := congrArg String.toList h
      rw [String.toList_append, String.toList_append, List.append_assoc] at this
      exact this
    obtain ⟨h1, h2⟩ := append_cons_inj (by decide) (by decide) hlist
    exact ⟨String.toList_inj.1 h1, String.toList_inj.1 h2⟩
  · rintro ⟨rfl, rfl⟩
    decide

/-- No variable of a node is called `cls`: they all contain an underscore. -/
theorem variable_ne_cls (nodeId key : String) : nodeId ++ "_" ++ key ≠ "cls" := by
  intro h
  have hmem : '_' ∈ (nodeId ++ "_" ++ key).toList := by
    rw [String.toList_append, String.toList_append, List.append_assoc]
    exact List.mem_append_right _ (List.mem_cons_self ..)
  rw [h] at hmem
  exact absurd hmem (by decide)

/-- The names under which a result is stored. -/
theorem contains_captured_iff {nodeId name : String} {r : ActionResult} :
    (r.captured nodeId).contains name = true ↔
      nodeId ++ "_status" = name ∨
        ∃ e ∈ r.data, isScalar e.2 = true ∧ nodeId ++ "_" ++ e.1 = name := by
  rw [captured, KeyedList.contains_put, KeyedList.contains_ofList, List.map_map, List.mem_map]
  refine or_congr Iff.rfl ⟨?_, ?_⟩
  · rintro ⟨e, he, hname⟩
    exact ⟨e, (List.mem_filter.1 he).1, (List.mem_filter.1 he).2, hname⟩
  · rintro ⟨e, he, hs, hname⟩
    exact ⟨e, List.mem_filter.2 ⟨he, hs⟩, hname⟩

theorem contains_captured_cls (nodeId : String) (r : ActionResult) :
    (r.captured nodeId).contains "cls" = false := by
  rw [Bool.eq_false_iff]
  intro h
  rcases contains_captured_iff.1 h with h | ⟨e, -, -, h⟩
  · rw [show nodeId ++ "_status" = nodeId ++ "_" ++ "status" by rw [String.append_assoc]; rfl] at h
    exact variable_ne_cls nodeId "status" h
  · exact variable_ne_cls nodeId e.1 h

/-- A result is stored under `node_id` exactly if it holds an `id` and the node
is called `node`. -/
theorem contains_captured_node_id_iff {nodeId : String} {r : ActionResult} :
    (r.captured nodeId).contains "node_id" = true ↔ nodeId = "node" ∧ r.HasId := by
  rw [contains_captured_iff]
  constructor
  · rintro (h | ⟨e, he, hs, h⟩)
    · rw [show nodeId ++ "_status" = nodeId ++ "_" ++ "status" by
        rw [String.append_assoc]; rfl] at h
      exact absurd (variable_eq_node_id_iff.1 h).2 (by decide)
    · obtain ⟨h1, h2⟩ := variable_eq_node_id_iff.1 h
      exact ⟨h1, e, he, h2, hs⟩
  · rintro ⟨h1, e, he, h2, hs⟩
    exact Or.inr ⟨e, he, hs, variable_eq_node_id_iff.2 ⟨h1, h2⟩⟩

end ActionResult

namespace Handler

open Outcome

variable {nodeId : String} {b : Branches} {r : ActionResult}

theorem any_isOverlong_iff {r : ActionResult} :
    (r.data.any fun e => ActionResult.isOverlong e.2) = true ↔ r.HasOverlong := by
  rw [List.any_eq_true]
  rfl

theorem afterAction_of_hasOverlong (h : r.HasOverlong) :
    afterAction nodeId b r = .error .overlong := by
  rw [afterAction, if_pos (any_isOverlong_iff.2 h)]

theorem afterAction_of_succeeded (h : ¬ r.HasOverlong) (hs : r.succeeded = true) :
    afterAction nodeId b r = followWith b.success (r.captured nodeId)
      [("action_success", .bool r.succeeded), ("action_error", .ofOption r.error)] := by
  rw [afterAction, if_neg fun hc => h (any_isOverlong_iff.1 hc), if_pos hs]

/-- A failure follows its branch, whatever it is called, or stays. -/
theorem afterAction_of_failed (nodeId : String) (b : Branches) (h : ¬ r.HasOverlong)
    (hs : r.succeeded = false) :
    ∃ metadata, afterAction nodeId b r =
      .ok (match b.failure with
        | some target => ⟨.to target, r.captured nodeId, metadata⟩
        | none => ⟨.stay "Action failed", .empty, metadata⟩) := by
  rw [afterAction, if_neg fun hc => h (any_isOverlong_iff.1 hc), hs, if_neg Bool.false_ne_true]
  cases b.failure with
  | none => exact ⟨_, rfl⟩
  | some target => exact ⟨_, rfl⟩

end Handler

/-! ## Conclusions -/

namespace Node

open Outcome

variable {n : Node} {bindings : Dict String} {input : String} {result : ActionResult}

/-- The interpretation of an input at a node has no outcome: an acceptable input
would be captured under a reserved name, or the result of an action holds a
number that is too long, or a success would be stored under a reserved name. -/
def Refuses (n : Node) (input : String) (result : ActionResult) : Prop :=
  match n.behaviour with
  | .input spec next => spec.Accepts input ∧ IsReserved next spec.variableName
  | .payment b _ _ | .api b _ _ =>
    result.HasOverlong ∨
      result.succeeded = true ∧ b.success ≠ none ∧ n.id = "node" ∧ result.HasId
  | _ => False

theorem refuses_action_iff {b : Branches} (h : n.branches? = some b) :
    n.Refuses input result ↔ result.HasOverlong ∨
      result.succeeded = true ∧ b.success ≠ none ∧ n.id = "node" ∧ result.HasId := by
  rw [branches?] at h
  split at h <;> simp only [Option.some.injEq, reduceCtorEq] at h
  all_goals
    rename_i heq
    subst h
    rw [Refuses, heq]

theorem or_eq {α : Type} (x y : Option α) : x.or y = x ∨ x.or y = y := by
  cases x with
  | none => exact Or.inr rfl
  | some a => exact Or.inl rfl

/-- What a node captures of an input, or of the result of its action, when the session
goes on from it. -/
def captures (n : Node) (input : String) (result : ActionResult) : Dict String :=
  match n.behaviour with
  | .input spec _ => .ofList [(spec.variableName, input)]
  | .payment .. | .api .. => result.captured n.id
  | _ => .empty

theorem captures_of_branches? {b : Branches} (h : n.branches? = some b) :
    n.captures input result = result.captured n.id := by
  rw [branches?] at h
  split at h <;> simp only [Option.some.injEq, reduceCtorEq] at h
  all_goals
    rename_i heq
    rw [captures, heq]

/-- Where a session may go from a node: along one of the node's own edges, or from an
end node to the end. -/
def Offers (n : Node) (target : Option String) : Prop :=
  target ∈ n.edges ∨ n.kind = .terminal ∧ target = none

theorem Offers.mem_targets {t : String} (h : n.Offers (some t)) : t ∈ n.targets := by
  rcases h with hmem | ⟨-, hnone⟩
  · exact mem_targets_iff.2 hmem
  · cases hnone

theorem offers_of_branches? {b : Branches} (h : n.branches? = some b) {target : Option String}
    (ht : target = b.success ∨ target = b.failure) : n.Offers target := by
  refine Or.inl ?_
  rw [edges_of_branches? h]
  simpa using ht

/-- An outcome that passes the session on from a node: to where the node lets it go,
with what the node captures. -/
structure PassesOn (n : Node) (input : String) (result : ActionResult) (o : Outcome) : Prop where
  move : ∃ target, o.move = .along target ∧ n.Offers target
  captured : o.captured = n.captures input result

/-- An edge that is followed passes the session on. -/
theorem passesOn_of_followWith {target : Option String} {captured : Dict String}
    {metadata : List (String × Value)} {o : Outcome}
    (h : Handler.followWith target captured metadata = .ok o)
    (ht : n.Offers target) (hc : captured = n.captures input result) :
    n.PassesOn input result o :=
  ⟨⟨target, (Handler.followWith_ok h).1, ht⟩, (Handler.followWith_ok h).2.trans hc⟩

theorem stays_or_passesOn_of_branches? {b : Branches} (hb : n.branches? = some b) {o : Outcome}
    (h : n.interpret bindings input result = .ok o) :
    (∃ message metadata, o = ⟨.stay message, .empty, metadata⟩) ∨ n.PassesOn input result o := by
  have hcaptures : result.captured n.id = n.captures input result :=
    (captures_of_branches? hb).symm
  rw [interpret_action hb] at h
  by_cases hl : result.HasOverlong
  · rw [Handler.afterAction_of_hasOverlong hl] at h
    cases h
  · cases hs : result.succeeded with
    | true =>
        rw [Handler.afterAction_of_succeeded hl hs] at h
        exact Or.inr (passesOn_of_followWith h (offers_of_branches? hb (Or.inl rfl)) hcaptures)
    | false =>
        obtain ⟨metadata, heq⟩ := Handler.afterAction_of_failed n.id b hl hs
        rw [heq] at h
        cases hfailure : b.failure with
        | none =>
            rw [hfailure] at h
            cases h
            exact Or.inl ⟨_, _, rfl⟩
        | some node =>
            rw [hfailure] at h
            cases h
            exact Or.inr ⟨⟨some node, rfl, offers_of_branches? hb (Or.inr hfailure.symm)⟩, hcaptures⟩

/-- **Staying or passing on.**  An outcome either leaves the session where it is, with
nothing captured, or passes it on from the node. -/
theorem stays_or_passesOn {o : Outcome} (h : n.interpret bindings input result = .ok o) :
    (∃ message metadata, o = ⟨.stay message, .empty, metadata⟩) ∨ n.PassesOn input result o := by
  cases hb : n.behaviour with
  | menu options =>
      rw [interpret_menu hb] at h
      cases ho : n.option? (Text.strip input) with
      | none =>
          rw [Handler.choose_of_none ho] at h
          cases h
          exact Or.inl ⟨_, _, rfl⟩
      | some option =>
          rw [Handler.choose_of_some ho] at h
          cases h
          refine Or.inr ⟨⟨option.target, rfl, Or.inl ?_⟩, by rw [captures, hb]⟩
          have hmem : option ∈ n.options := List.mem_of_find?_eq_some ho
          rw [Node.options, hb] at hmem
          rw [edges, hb]
          exact List.mem_map_of_mem hmem
  | input spec next =>
      rw [interpret_input hb] at h
      by_cases ha : spec.Accepts input
      · rw [Handler.captureInput_of_accepts ha] at h
        refine Or.inr (passesOn_of_followWith h (Or.inl ?_) (by rw [captures, hb]))
        rw [edges, hb]
        exact List.mem_singleton_self _
      · obtain ⟨message, metadata, heq⟩ := Handler.captureInput_of_not_accepts next ha
        rw [heq] at h
        cases h
        exact Or.inl ⟨message, metadata, rfl⟩
  | conditional c b next =>
      rw [interpret_conditional hb, Handler.branch_eq] at h
      cases h
      refine Or.inr ⟨⟨_, rfl, Or.inl ?_⟩, by rw [captures, hb]⟩
      simp only [edges, hb]
      rcases or_eq (if c.holds bindings then b.success else b.failure) next with heq | heq
      · rw [heq]
        split <;> simp
      · rw [heq]
        simp
  | payment b amount currency =>
      exact stays_or_passesOn_of_branches? (by rw [branches?, hb]) h
  | api b url method =>
      exact stays_or_passesOn_of_branches? (by rw [branches?, hb]) h
  | terminal =>
      rw [interpret_terminal hb] at h
      cases h
      exact Or.inr ⟨⟨none, rfl, Or.inr ⟨by rw [kind, hb], rfl⟩⟩, by rw [captures, hb]⟩

/-- An outcome that does not stay passes the session on. -/
theorem passesOn_of_interpret {o : Outcome} (h : n.interpret bindings input result = .ok o)
    (hmove : ∀ message, o.move ≠ .stay message) : n.PassesOn input result o := by
  rcases stays_or_passesOn h with ⟨message, metadata, rfl⟩ | hpasses
  · exact absurd rfl (hmove message)
  · exact hpasses

/-- **Moves follow edges.**  The node that an interpretation leads to is a
target of the node where it takes place. -/
theorem target_mem_of_interpret {o : Outcome} (h : n.interpret bindings input result = .ok o)
    {t : String} (ht : o.target? = some t) : t ∈ n.targets := by
  rcases stays_or_passesOn h with ⟨message, metadata, rfl⟩ | hpasses
  · cases ht
  · obtain ⟨target, hmove, hoffers⟩ := hpasses.move
    rw [target?, hmove] at ht
    cases target with
    | none => cases ht
    | some node =>
        cases ht
        exact hoffers.mem_targets

/-- Whether a session may end at a node: it is an end node, or an edge of it leads to
none. -/
def MayEnd (n : Node) : Prop := n.kind = .terminal ∨ none ∈ n.edges

/-- What may come out of a node as far as the graph tells: a move to one of the targets
of the node; the end, if a session may end there; or an error, with nothing captured. -/
structure Allows (n : Node) (o : Outcome) : Prop where
  target : ∀ t, o.target? = some t → t ∈ n.targets
  final : o.isFinal = true → n.MayEnd
  error : o.isError = true → o.captured = .empty

/-- **Outcomes keep to the edges.**  Whatever the variables, the input and the result of
the action, what comes out of a node is what the node allows. -/
theorem allows_of_interpret {o : Outcome} (h : n.interpret bindings input result = .ok o) :
    n.Allows o where
  target := fun _ ht => target_mem_of_interpret h ht
  final := fun hfinal => by
    rcases stays_or_passesOn h with ⟨message, metadata, rfl⟩ | hpasses
    · cases hfinal
    · obtain ⟨target, hmove, hoffers⟩ := hpasses.move
      cases target with
      | some node =>
          rw [isFinal, hmove] at hfinal
          cases hfinal
      | none => exact hoffers.symm.imp_left And.left
  error := fun herror => by
    rcases stays_or_passesOn h with ⟨message, metadata, rfl⟩ | hpasses
    · rfl
    · obtain ⟨target, hmove, -⟩ := hpasses.move
      rw [isError, error?, hmove] at herror
      cases target <;> cases herror

/-- **Conditionals lead on.**  At a conditional node the outcome is a move to a
node or the end, and nothing is captured. -/
theorem interpret_of_isTransient (h : n.isTransient = true) (bindings : Dict String)
    (input : String) (result : ActionResult) :
    ∃ target metadata,
      n.interpret bindings input result = .ok ⟨.along target, .empty, metadata⟩ := by
  cases hb : n.behaviour with
  | conditional c b next =>
      rw [interpret_conditional hb, Handler.branch_eq]
      exact ⟨_, _, rfl⟩
  | _ =>
      simp only [isTransient, kind, hb] at h
      cases h

/-- An interpretation either has an outcome, or the node refuses it. -/
theorem interpret_cases (n : Node) (bindings : Dict String) (input : String)
    (result : ActionResult) :
    (n.Refuses input result ∧ ∃ error, n.interpret bindings input result = .error error) ∨
      (¬ n.Refuses input result ∧ ∃ o, n.interpret bindings input result = .ok o) := by
  cases hb : n.behaviour with
  | menu options =>
      refine Or.inr ⟨by rw [Refuses, hb]; exact fun h => h, ?_⟩
      rw [interpret_menu hb]
      cases ho : n.option? (Text.strip input) with
      | none => exact ⟨_, Handler.choose_of_none ho⟩
      | some option => exact ⟨_, Handler.choose_of_some ho⟩
  | input spec next =>
      rw [interpret_input hb, Refuses, hb]
      by_cases ha : spec.Accepts input
      · rw [Handler.captureInput_of_accepts ha]
        by_cases hr : IsReserved next spec.variableName
        · have hc : (KeyedList.ofList [(spec.variableName, input)] : Dict String).contains
              spec.variableName = true := KeyedList.contains_ofList.2 (List.mem_singleton_self _)
          obtain ⟨name, hname⟩ := Handler.followWith_eq_error [] hr hc
          exact Or.inl ⟨⟨ha, hr⟩, _, hname⟩
        · refine Or.inr ⟨fun hc => hr hc.2, _, Handler.followWith_eq_ok fun name hname => ?_⟩
          rw [Bool.eq_false_iff]
          intro hc
          have hmem : name = spec.variableName :=
            List.mem_singleton.1 (KeyedList.contains_ofList.1 hc)
          exact hr (hmem ▸ hname)
      · obtain ⟨message, metadata, heq⟩ := Handler.captureInput_of_not_accepts next ha
        exact Or.inr ⟨fun hc => ha hc.1, _, heq⟩
  | conditional c b next =>
      refine Or.inr ⟨by rw [Refuses, hb]; exact fun h => h, ?_⟩
      rw [interpret_conditional hb]
      exact ⟨_, Handler.branch_eq ..⟩
  | payment b amount currency =>
      exact action_cases (by rw [branches?, hb])
  | api b url method =>
      exact action_cases (by rw [branches?, hb])
  | terminal =>
      refine Or.inr ⟨by rw [Refuses, hb]; exact fun h => h, ?_⟩
      exact ⟨_, interpret_terminal hb⟩
where
  /-- The same for an action node. -/
  action_cases {n : Node} {bindings : Dict String} {input : String} {result : ActionResult}
      {b : Branches} (hb : n.branches? = some b) :
      (n.Refuses input result ∧ ∃ error, n.interpret bindings input result = .error error) ∨
        (¬ n.Refuses input result ∧ ∃ o, n.interpret bindings input result = .ok o) := by
    rw [interpret_action hb, refuses_action_iff hb]
    by_cases hl : result.HasOverlong
    · exact Or.inl ⟨Or.inl hl, _, Handler.afterAction_of_hasOverlong hl⟩
    · cases hs : result.succeeded with
      | false =>
          obtain ⟨metadata, heq⟩ := Handler.afterAction_of_failed n.id b hl hs
          exact Or.inr ⟨fun hc => hc.elim hl fun h => Bool.false_ne_true h.1, _, heq⟩
      | true =>
          rw [Handler.afterAction_of_succeeded hl hs]
          by_cases hr : b.success ≠ none ∧ n.id = "node" ∧ result.HasId
          · obtain ⟨h1, h2, h3⟩ := hr
            have hres : IsReserved b.success "node_id" := Or.inr ⟨rfl, h1⟩
            obtain ⟨name, hname⟩ := Handler.followWith_eq_error
              [("action_success", .bool result.succeeded), ("action_error", .ofOption result.error)]
              hres (ActionResult.contains_captured_node_id_iff.2 ⟨h2, h3⟩)
            exact Or.inl ⟨Or.inr ⟨rfl, h1, h2, h3⟩, _, hname⟩
          · refine Or.inr ⟨fun hc => hc.elim hl fun h => hr h.2, _,
              Handler.followWith_eq_ok fun name hname => ?_⟩
            rcases hname with rfl | ⟨rfl, hne⟩
            · exact ActionResult.contains_captured_cls n.id result
            · rw [Bool.eq_false_iff]
              intro hc
              exact hr ⟨hne, ActionResult.contains_captured_node_id_iff.1 hc⟩

/-- **Refusals.**  An interpretation has no outcome exactly if the node refuses it. -/
theorem interpret_error_iff :
    (∃ error, n.interpret bindings input result = .error error) ↔ n.Refuses input result := by
  rcases interpret_cases n bindings input result with ⟨hr, he⟩ | ⟨hr, o, ho⟩
  · exact ⟨fun _ => hr, fun _ => he⟩
  · refine ⟨fun ⟨error, he⟩ => ?_, fun h => absurd h hr⟩
    rw [ho] at he
    cases he

end Node

end UssdFlows
