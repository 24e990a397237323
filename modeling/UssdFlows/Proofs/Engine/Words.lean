import UssdFlows.Proofs.Interpretation

/-!
# The words that actions leave behind

When a session leaves a node, what the node has captured is stored among the variables
of the session.  This file says what that does to a single variable.  An action node
stores its result under names that begin with its own (`ActionResult.word?`); an input
node stores what was typed under the name of its specification; the others store
nothing (`Node.Gives`).

So a name that is neither a default nor belongs to an input node (`Flow.Spares`) is
only ever written by actions, and holds the word of the last one that was left and has
one for it (`lastWord?`).

The status variable of an action node is such a name, and all names of a node are made by
putting the node and a key together.  The parts cannot be told apart afterwards: a datum
called `x_status` of the node `pay` goes under `pay_x_status`, which is the status
variable of the node `pay_x` (`ActionResult.forges_iff`).
-/

namespace UssdFlows

variable {q p name : String} {r : ActionResult}

/-! ## Looking up what was stored -/

namespace KeyedList

variable {κ β : Type} [DecidableEq κ] {key : β → κ}

/-- Of entries with different keys that are stored, each is found. -/
theorem find?_putAll_of_mem {t : KeyedList key} {xs : List β} {x : β}
    (hnodup : (xs.map key).Nodup) (hx : x ∈ xs) : (t.putAll xs).find? (key x) = some x := by
  induction xs generalizing t with
  | nil => cases hx
  | cons y rest ih =>
      obtain ⟨hy, hrest⟩ := List.nodup_cons.1 hnodup
      show ((t.put y).putAll rest).find? (key x) = some x
      rcases List.mem_cons.1 hx with rfl | hx
      · rw [find?_putAll_of_not_mem hy, find?_put_self]
      · exact ih hrest hx

/-- The entries of one container are stored in another: what is found is what the first
one has, and else what was there. -/
theorem find?_putAll (t d : KeyedList key) (k : κ) :
    (t.putAll d.items).find? k = (d.find? k).or (t.find? k) := by
  cases hd : d.find? k with
  | none => exact find?_putAll_of_not_mem (find?_eq_none_iff.1 hd)
  | some x =>
      obtain ⟨hx, rfl⟩ := find?_eq_some_iff.1 hd
      exact find?_putAll_of_mem d.nodup hx

end KeyedList

/-- The value of a variable of a session. -/
def Session.value? (s : Session) (name : String) : Option String :=
  (s.bindings.find? name).map Prod.snd

theorem Session.value?_putAll {s s' : Session} {captured : Dict String}
    (h : s'.bindings = s.bindings.putAll captured.items) (name : String) :
    s'.value? name = ((captured.find? name).map Prod.snd).or (s.value? name) := by
  rw [value?, h, KeyedList.find?_putAll, Option.map_or]
  rfl

/-! ## The words of a result -/

namespace ActionResult

/-- The word for how an action ended. -/
def verdict (r : ActionResult) : String := if r.succeeded then "success" else "failed"

/-- What the result of the action of a node stores under a name. -/
def word? (r : ActionResult) (node name : String) : Option String :=
  ((r.captured node).find? name).map Prod.snd

/-- A result of the action of one node sets the status variable of another one: the
name of the other node goes on after that of the first, and a datum is called after the
rest. -/
def Forges (r : ActionResult) (q p : String) : Prop :=
  ∃ rest, p = q ++ "_" ++ rest ∧ ∃ d ∈ r.data, isScalar d.2 = true ∧ d.1 = rest ++ "_status"

/-- Under the status variable of its own node a result stores how the action ended. -/
theorem word?_status (r : ActionResult) (p : String) :
    r.word? p (p ++ "_status") = some r.verdict := by
  rw [word?, captured_status]
  rfl

/-- Names of variables of two nodes are the same only if the name of one node goes on
with the key of a datum of the other. -/
theorem variable_eq_status_iff {key : String} (hne : q ≠ p) :
    q ++ "_" ++ key = p ++ "_status" ↔ ∃ rest, p = q ++ "_" ++ rest ∧ key = rest ++ "_status" := by
  constructor
  · intro h
    have hlist : q.toList ++ '_' :: key.toList = p.toList ++ "_status".toList := by
      have := congrArg String.toList h
      rw [String.toList_append, String.toList_append, String.toList_append,
        List.append_assoc] at this
      exact this
    rcases List.append_eq_append_iff.1 hlist with ⟨as, hp, hkey⟩ | ⟨bs, hq, hstatus⟩
    · cases as with
      | nil => exact absurd (String.toList_inj.1 (hp.trans (List.append_nil _))).symm hne
      | cons a as =>
          obtain ⟨rfl, hrest⟩ := List.cons.inj hkey
          have hof : (String.ofList as).toList = as := String.toList_ofList
          refine ⟨String.ofList as, String.toList_inj.1 ?_, String.toList_inj.1 ?_⟩
          · rw [String.toList_append, String.toList_append, hof, List.append_assoc]
            exact hp
          · rw [String.toList_append, hof]
            exact hrest
    · -- the word `status` holds no underscore, so that nothing of it can be in the first name
      cases bs with
      | nil => exact absurd (String.toList_inj.1 (hq.trans (List.append_nil _))) hne
      | cons b bs =>
          have htail : "status".toList = bs ++ '_' :: key.toList := (List.cons.inj hstatus).2
          have hmem : '_' ∈ "status".toList := htail ▸ List.mem_append_right bs List.mem_cons_self
          exact absurd hmem (by decide)
  · rintro ⟨rest, rfl, rfl⟩
    simp only [String.append_assoc]

/-- **Forging.**  The result of an action stores something under the status variable of
another node exactly if it forges it. -/
theorem forges_iff (hne : q ≠ p) : (r.word? q (p ++ "_status")).isSome = true ↔ r.Forges q p := by
  have hstatus : q ++ "_status" ≠ p ++ "_status" := by
    intro h
    have hlist := congrArg String.toList h
    rw [String.toList_append, String.toList_append] at hlist
    exact hne (String.toList_inj.1 (List.append_cancel_right hlist))
  rw [word?, Option.isSome_map]
  show (r.captured q).contains (p ++ "_status") = true ↔ _
  rw [contains_captured_iff, or_iff_right hstatus]
  simp only [variable_eq_status_iff hne, Forges]
  constructor
  · rintro ⟨d, hd, hscalar, rest, hp, hkey⟩
    exact ⟨rest, hp, d, hd, hscalar, hkey⟩
  · rintro ⟨rest, hp, d, hd, hscalar, hkey⟩
    exact ⟨d, hd, hscalar, rest, hp, hkey⟩

end ActionResult

/-! ## What nodes give -/

/-- A variable is neither a default of a flow nor written by an input node of it. -/
structure Flow.Spares (f : Flow) (name : String) : Prop where
  defaults : f.defaults.find? name = none
  inputs : ∀ n ∈ f.nodes.items, ∀ spec next, n.behaviour = .input spec next →
    spec.variableName ≠ name

/-- What a node may have captured when its session goes on: an action node the result of
its action, the others at most the variable of an input node. -/
structure Node.Gives (n : Node) (result? : Option ActionResult) (captured : Dict String) :
    Prop where
  acted : n.isAction = true → ∃ r, result? = some r ∧ captured = r.captured n.id
  plain : n.isAction = false → ∀ name, captured.contains name = true →
    ∃ spec next, n.behaviour = .input spec next ∧ spec.variableName = name

namespace Node

variable {n : Node} {bindings : Dict String} {input : String} {o : Outcome}

theorem gives_captures (n : Node) (input : String) (r : ActionResult) :
    n.Gives (some r) (n.captures input r) := by
  cases ha : n.isAction with
  | true =>
      obtain ⟨b, hb⟩ := isAction_iff_branches?.1 ha
      refine ⟨fun _ => ⟨r, rfl, captures_of_branches? hb⟩, fun hno => ?_⟩
      exact absurd (hno.symm.trans ha) Bool.false_ne_true
  | false =>
      refine ⟨fun hc => absurd (ha.symm.trans hc) Bool.false_ne_true, fun _ name hname => ?_⟩
      cases hb : n.behaviour with
      | input spec next =>
          rw [captures, hb, KeyedList.contains_ofList, List.map_singleton,
            List.mem_singleton] at hname
          exact ⟨spec, next, rfl, hname.symm⟩
      | payment | api =>
          rw [isAction, kind, hb] at ha
          cases ha
      | _ =>
          rw [captures, hb] at hname
          cases hname

/-- **Giving.**  What a node has captured when it leads on. -/
theorem gives_of_interpret (h : n.interpret bindings input r = .ok o)
    (hmove : ∀ message, o.move ≠ .stay message) : n.Gives (some r) o.captured := by
  rw [(passesOn_of_interpret h hmove).captured]
  exact n.gives_captures input r

/-- Under a name that the flow spares only actions store something. -/
theorem Gives.find?_eq_none {f : Flow} {result? : Option ActionResult} {captured : Dict String}
    (h : n.Gives result? captured) (hspares : f.Spares name) (hn : n ∈ f.nodes.items)
    (ha : n.isAction = false) : captured.find? name = none := by
  rw [← Option.not_isSome_iff_eq_none]
  intro hc
  obtain ⟨spec, next, hb, hname⟩ := h.plain ha name hc
  exact hspares.inputs n hn spec next hb hname

end Node

/-! ## The last word -/

variable {heard new : List (String × ActionResult)} {left : List String} {value : Option String}

/-- The last result that was heard of the action of a node.  A session that stays at a
node has its action carried out again with the next input, and it never comes back to a
node it has left: of a node that was left, this is the result with which it was left. -/
def resultAt? (heard : List (String × ActionResult)) (node : String) : Option ActionResult :=
  (heard.reverse.find? fun x => x.1 == node).map Prod.snd

/-- What a node stores under a name when it is left, by the last result of its action. -/
def wordAt? (heard : List (String × ActionResult)) (name node : String) : Option String :=
  (resultAt? heard node).bind fun r => r.word? node name

/-- What the last one of the nodes that store something under a name stores there. -/
def lastWord? (heard : List (String × ActionResult)) (name : String) (left : List String) :
    Option String := left.reverse.findSome? (wordAt? heard name)

theorem resultAt?_concat_self (heard : List (String × ActionResult)) (q : String)
    (r : ActionResult) : resultAt? (heard ++ [(q, r)]) q = some r := by
  simp [resultAt?]

theorem resultAt?_append_of_ne (h : ∀ x ∈ new, x.1 ≠ q) :
    resultAt? (heard ++ new) q = resultAt? heard q := by
  have hnone : new.reverse.find? (fun x => x.1 == q) = none := by
    rw [List.find?_eq_none]
    intro x hx
    simpa using h x (List.mem_reverse.1 hx)
  rw [resultAt?, List.reverse_append, List.find?_append, hnone, Option.none_or]
  rfl

theorem resultAt?_eq_none (h : ∀ x ∈ heard, x.1 ≠ q) : resultAt? heard q = none := by
  rw [← List.nil_append heard, resultAt?_append_of_ne h]
  rfl

theorem lastWord?_append (heard : List (String × ActionResult)) (name : String)
    (before after : List String) :
    lastWord? heard name (before ++ after) =
      (lastWord? heard name after).or (lastWord? heard name before) := by
  rw [lastWord?, List.reverse_append, List.findSome?_append]
  rfl

theorem lastWord?_singleton (heard : List (String × ActionResult)) (name q : String) :
    lastWord? heard name [q] = wordAt? heard name q := by
  simp [lastWord?]

theorem lastWord?_eq_none_iff :
    lastWord? heard name left = none ↔ ∀ q ∈ left, wordAt? heard name q = none := by
  simp [lastWord?]

/-- What is heard of other nodes makes no difference. -/
theorem lastWord?_heard_append (h : ∀ x ∈ new, x.1 ∉ left) (name : String) :
    lastWord? (heard ++ new) name left = lastWord? heard name left := by
  induction left with
  | nil => rfl
  | cons q left ih =>
      have hq : ∀ x ∈ new, x.1 ≠ q := fun x hx hxq => h x hx (hxq ▸ List.mem_cons_self)
      have hleft : ∀ x ∈ new, x.1 ∉ left := fun x hx hmem => h x hx (List.mem_cons_of_mem q hmem)
      rw [← List.singleton_append, lastWord?_append, lastWord?_append, ih hleft,
        lastWord?_singleton, lastWord?_singleton, wordAt?, wordAt?, resultAt?_append_of_ne hq]

/-! ## Status variables -/

/-- What the action of a node came to stores something under the status variable of
another node. -/
def Forged (heard : List (String × ActionResult)) (p q : String) : Prop :=
  ∃ r, resultAt? heard q = some r ∧ r.Forges q p

theorem wordAt?_status (h : resultAt? heard p = some r) :
    wordAt? heard (p ++ "_status") p = some r.verdict := by
  rw [wordAt?, h, Option.bind_some, r.word?_status]

theorem wordAt?_eq_none_iff (hne : q ≠ p) :
    wordAt? heard (p ++ "_status") q = none ↔ ¬ Forged heard p q := by
  rw [← Option.not_isSome_iff_eq_none, wordAt?, Forged]
  cases resultAt? heard q with
  | none => simp
  | some r => simp [ActionResult.forges_iff hne]

/-- What the value of the status variable of an action node says, when some nodes have
been left.  It is the word of the last one of them that had one for it.  As long as the
node itself is not among them, the variable is unset exactly if no other one has forged
it; and once the node has been left, the variable says how its action ended, whatever
was forged before, if none of those after it forges it again. -/
structure StatusTold (heard : List (String × ActionResult)) (left : List String) (p : String)
    (value : Option String) : Prop where
  last : value = lastWord? heard (p ++ "_status") left
  unset : p ∉ left → (value = none ↔ ∀ q ∈ left, ¬ Forged heard p q)
  told : ∀ before after, left = before ++ p :: after → (∀ q ∈ after, ¬ Forged heard p q) →
    ∃ r, resultAt? heard p = some r ∧ value = some r.verdict

theorem statusTold_lastWord? (hnodup : left.Nodup) (hacted : p ∈ left → resultAt? heard p ≠ none) :
    StatusTold heard left p (lastWord? heard (p ++ "_status") left) where
  last := rfl
  unset := fun hp => by
    rw [lastWord?_eq_none_iff]
    have hne : ∀ q ∈ left, q ≠ p := fun q hq hqp => hp (hqp ▸ hq)
    exact forall₂_congr fun q hq => wordAt?_eq_none_iff (hne q hq)
  told := fun before after hleft hafter => by
    subst hleft
    obtain ⟨r, hr⟩ := Option.ne_none_iff_exists'.1
      (hacted (List.mem_append_right before List.mem_cons_self))
    have hne : ∀ q ∈ after, q ≠ p := fun q hq hqp =>
      (List.nodup_cons.1 (List.nodup_append.1 hnodup).2.1).1 (hqp ▸ hq)
    have hnone : lastWord? heard (p ++ "_status") after = none :=
      lastWord?_eq_none_iff.2 fun q hq => (wordAt?_eq_none_iff (hne q hq)).2 (hafter q hq)
    refine ⟨r, hr, ?_⟩
    rw [lastWord?_append, ← List.singleton_append, lastWord?_append, hnone, Option.none_or,
      lastWord?_singleton, wordAt?_status hr, Option.some_or]

/-- A node whose name does not go on after that of another node that is left is safe from
it: its status variable tells of its own action and of nothing else. -/
theorem StatusTold.of_apart (h : StatusTold heard left p value)
    (hapart : ∀ q ∈ left, ∀ rest, p ≠ q ++ "_" ++ rest) :
    (p ∉ left → value = none) ∧
      (p ∈ left → ∃ r, resultAt? heard p = some r ∧ value = some r.verdict) := by
  have hunforged : ∀ q ∈ left, ¬ Forged heard p q := by
    rintro q hq ⟨r, -, rest, hp, -⟩
    exact hapart q hq rest hp
  refine ⟨fun hp => (h.unset hp).2 hunforged, fun hp => ?_⟩
  obtain ⟨before, after, hleft⟩ := List.append_of_mem hp
  refine h.told before after hleft fun q hq => hunforged q ?_
  rw [hleft]
  exact List.mem_append_right before (List.mem_cons_of_mem p hq)

end UssdFlows
