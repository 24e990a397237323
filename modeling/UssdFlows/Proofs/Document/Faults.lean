import UssdFlows.Proofs.Document.Tokens

/-!
# What can be wrong with a text in block notation

A text is cut into tokens, a tree is composed of these, and the tree is given a value.
The tree can only break the notation (`meets_compose`), and its value fails either for
the notation or where the value of one of its scalars does (`Node.meets_value`).  So if a
text is refused for any other cause, then either it could not be cut or there is a
scalar in it that has no value (`fault_of_read`).
-/

namespace UssdFlows.Yaml

variable {α : Type}

/-! ## Trees of nodes -/

namespace Composing

/-- A step that fails only with faults of the notation. -/
abbrev Parses (x : Composing α) : Prop := StepMeets Fault.IsGrammar x

theorem parses_refuse (what : String) : Parses (refuse what : Composing α) := .throw rfl

theorem parses_peek : Parses peek := .bind .get fun _ => .pure _

theorem parses_accept (t : Token) : Parses (accept t) :=
  .bind parses_peek fun _ => .ite (.bind (.modify _) fun _ => .pure _) (.pure _)

theorem parses_expand (h : Option String) (ending : String) : Parses (expand h ending) := by
  cases h with
  | none => exact .pure _
  | some h =>
      refine .bind .get fun s => ?_
      cases s.handles.lookup h with
      | none => exact parses_refuse _
      | some start => exact .pure _

theorem parses_properties : Parses properties := by
  refine .bind parses_peek fun t => ?_
  split
  · refine .bind (.modify _) fun _ => .bind parses_peek fun t' => ?_
    split
    · exact .bind (.modify _) fun _ => .bind (parses_expand _ _) fun _ => .pure _
    · exact .pure _
  · refine .bind (.modify _) fun _ => .bind parses_peek fun t' => ?_
    split
    · exact .bind (.modify _) fun _ => .bind (parses_expand _ _) fun _ => .pure _
    · exact .bind (parses_expand _ _) fun _ => .pure _
  · exact .pure _

theorem parses_register (anchor : Option String) (n : Node) : Parses (register anchor n) := by
  cases anchor with
  | none => exact .pure _
  | some name => exact .bind .get fun _ => .ite (.throw rfl) (.modify _)

theorem parses_emptyNode (anchored : Bool) (tag : Option String) :
    Parses (content.emptyNode anchored tag) := .ite (.pure _) (parses_refuse _)

/-- All parts of a tree fail only with faults of the notation. -/
structure ParsesAll (fuel : Nat) : Prop where
  node : ∀ block bare, Parses (node fuel block bare)
  content : ∀ block bare anchored tag, Parses (content fuel block bare anchored tag)
  blockItems : Parses (blockItems fuel)
  bareItems : Parses (bareItems fuel)
  blockPairs : Parses (blockPairs fuel)
  blockPart : Parses (blockPart fuel)
  flowItems : ∀ first, Parses (flowItems fuel first)
  flowPairs : ∀ first, Parses (flowPairs fuel first)
  flowPart : ∀ closing, Parses (flowPart fuel closing)
  flowValue : ∀ closing, Parses (flowValue fuel closing)

theorem parsesAll_zero : ParsesAll 0 where
  node _ _ := parses_refuse _
  content _ _ _ _ := parses_refuse _
  blockItems := parses_refuse _
  bareItems := parses_refuse _
  blockPairs := parses_refuse _
  blockPart := parses_refuse _
  flowItems _ := parses_refuse _
  flowPairs _ := parses_refuse _
  flowPart _ := parses_refuse _
  flowValue _ := parses_refuse _

theorem ParsesAll.succ {fuel : Nat} (h : ParsesAll fuel) : ParsesAll (fuel + 1) where
  node block bare := by
    rw [Composing.node]
    refine .bind parses_peek fun t => ?_
    split
    · refine .bind (.modify _) fun _ => .bind .get fun s => ?_
      split
      · exact .pure _
      · exact .throw rfl
    · exact .bind parses_properties fun _ => .bind (h.content _ _ _ _) fun _ =>
        .bind (parses_register _ _) fun _ => .pure _
  content block bare anchored tag := by
    rw [Composing.content]
    refine .bind parses_peek fun t => .ite (.bind h.bareItems fun _ => .pure _) ?_
    split
    · exact .bind (.modify _) fun _ => .pure _
    · exact .bind (.modify _) fun _ => .bind (h.flowItems _) fun _ => .pure _
    · exact .bind (.modify _) fun _ => .bind (h.flowPairs _) fun _ => .pure _
    · exact .ite (.bind (.modify _) fun _ => .bind h.blockItems fun _ => .pure _)
        (parses_emptyNode _ _)
    · exact .ite (.bind (.modify _) fun _ => .bind h.blockPairs fun _ => .pure _)
        (parses_emptyNode _ _)
    · exact parses_emptyNode _ _
  blockItems := by
    rw [Composing.blockItems]
    refine .bind (parses_accept _) fun _ => .ite (.bind parses_peek fun t => ?_) ?_
    · exact .ite (.bind (.pure _) fun _ => .bind h.blockItems fun _ => .pure _)
        (.bind (h.node _ _) fun _ => .bind h.blockItems fun _ => .pure _)
    · exact .bind (parses_accept _) fun _ => .ite (.pure _) (parses_refuse _)
  bareItems := by
    rw [Composing.bareItems]
    refine .bind (parses_accept _) fun _ => .ite (.bind parses_peek fun t => ?_) (.pure _)
    exact .ite (.bind (.pure _) fun _ => .bind h.bareItems fun _ => .pure _)
      (.bind (h.node _ _) fun _ => .bind h.bareItems fun _ => .pure _)
  blockPairs := by
    rw [Composing.blockPairs]
    refine .bind (parses_accept _) fun _ => .ite (.bind h.blockPart fun _ => ?_) ?_
    · refine .bind (parses_accept _) fun _ => .ite ?_ ?_
      · exact .bind h.blockPart fun _ => .bind h.blockPairs fun _ => .pure _
      · exact .bind (.pure _) fun _ => .bind h.blockPairs fun _ => .pure _
    · exact .bind (parses_accept _) fun _ => .ite (.pure _) (parses_refuse _)
  blockPart := by
    rw [Composing.blockPart]
    exact .bind parses_peek fun t => .ite (.pure _) (h.node _ _)
  flowItems first := by
    rw [Composing.flowItems]
    have hmore : Parses (Composing.flowItems fuel false) := h.flowItems _
    refine .bind (parses_accept _) fun _ => .ite (.pure _) (.ite (.bind (parses_accept _) fun _ =>
      .ite ?_ (.bind (parses_refuse _) fun _ => ?_)) ?_)
    all_goals
      refine .bind (parses_accept _) fun _ => .ite (.pure _)
        (.bind (parses_accept _) fun _ => .ite (.bind (h.flowPart _) fun _ => ?_) ?_)
      · exact .bind (parses_accept _) fun _ =>
          .ite (.bind (h.flowValue _) fun _ => .bind hmore fun _ => .pure _)
            (.bind (.pure _) fun _ => .bind hmore fun _ => .pure _)
      · exact .bind (h.node _ _) fun _ => .bind hmore fun _ => .pure _
  flowPairs first := by
    rw [Composing.flowPairs]
    have hmore : Parses (Composing.flowPairs fuel false) := h.flowPairs _
    refine .bind (parses_accept _) fun _ => .ite (.pure _) (.ite (.bind (parses_accept _) fun _ =>
      .ite ?_ (.bind (parses_refuse _) fun _ => ?_)) ?_)
    all_goals
      refine .bind (parses_accept _) fun _ => .ite (.pure _)
        (.bind (parses_accept _) fun _ => .ite (.bind (h.flowPart _) fun _ => ?_) ?_)
      · exact .bind (parses_accept _) fun _ =>
          .ite (.bind (h.flowValue _) fun _ => .bind hmore fun _ => .pure _)
            (.bind (.pure _) fun _ => .bind hmore fun _ => .pure _)
      · exact .bind (h.node _ _) fun _ => .bind hmore fun _ => .pure _
  flowPart closing := by
    rw [Composing.flowPart]
    exact .bind parses_peek fun t => .ite (.pure _) (h.node _ _)
  flowValue closing := by
    rw [Composing.flowValue]
    exact .bind parses_peek fun t => .ite (.pure _) (h.node _ _)

theorem parsesAll (fuel : Nat) : ParsesAll fuel := by
  induction fuel with
  | zero => exact parsesAll_zero
  | succ fuel ih => exact ih.succ

theorem parses_directives (fuel : Nat) (version : Bool) (handles : List (String × String)) :
    Parses (directives fuel version handles) := by
  induction fuel generalizing version handles with
  | zero => exact .pure _
  | succ fuel ih =>
      refine .bind parses_peek fun t => ?_
      split
      · refine .bind (.modify _) fun _ => ?_
        split
        · exact .ite (parses_refuse _) (.ite (parses_refuse _) (ih _ _))
        · exact .ite (parses_refuse _) (ih _ _)
        · exact ih _ _
      · exact .pure _

theorem parses_skipEnds (fuel : Nat) : Parses (skipEnds fuel) := by
  induction fuel with
  | zero => exact .pure _
  | succ fuel ih => exact .bind (parses_accept _) fun _ => .ite ih (.pure _)

theorem parses_explicitContent (fuel : Nat) : Parses (explicitContent fuel) := by
  refine .bind parses_peek fun t => ?_
  split
  · exact .pure _
  · exact .pure _
  · exact .pure _
  · exact .pure _
  · exact (parsesAll fuel).node _ _

theorem parses_document (fuel : Nat) : Parses (document fuel) := by
  have hend (found : Option Node) : Parses (do
      skipEnds fuel
      if (← peek) == .streamEnd then return found else throw .severalDocuments) :=
    .bind (parses_skipEnds fuel) fun _ => .bind parses_peek fun _ => .ite (.pure _) (.throw rfl)
  have hopened : Parses (do
      let own ← directives fuel false []
      modify fun s => { s with handles := own ++ standardHandles }
      let found ← if ← accept .documentStart then some <$> explicitContent fuel
        else refuse "the start of a document"
      skipEnds fuel
      if (← peek) == .streamEnd then return found else throw .severalDocuments) :=
    .bind (parses_directives _ _ _) fun _ => .bind (.modify _) fun _ => .bind (parses_accept _)
      fun _ => .ite (.bind (.map (parses_explicitContent fuel)) hend) (.bind (parses_refuse _) hend)
  refine .bind parses_peek fun t => ?_
  dsimp only
  split
  · exact .bind (.pure _) hend
  · exact hopened
  · exact hopened
  · exact .bind (.map ((parsesAll fuel).node _ _)) hend

end Composing

/-- **Trees.**  Tokens that make no tree break the notation. -/
theorem meets_compose (ts : List Token) : Meets Fault.IsGrammar (compose ts) :=
  (Composing.parses_document _ _).bind fun _ => meets_ok

/-! ## Values -/

/-- A fault of the notation, or of one of some scalars. -/
def Explains (has : Tag → String → Prop) (fault : Fault) : Prop :=
  fault.IsGrammar ∨ ∃ tag text, has tag text ∧ scalarValue tag text = .error fault

theorem Meets.scalars {has has' : Tag → String → Prop} {x : Except Fault α}
    (hx : Meets (Explains has) x) (h : ∀ tag text, has tag text → has' tag text) :
    Meets (Explains has') x := by
  intro fault hfault
  rcases hx fault hfault with hgrammar | ⟨tag, text, hhas, hscalar⟩
  · exact .inl hgrammar
  · exact .inr ⟨tag, text, h tag text hhas, hscalar⟩

theorem meets_grammar {has : Tag → String → Prop} {fault : Fault} (h : fault.IsGrammar) :
    Meets (Explains has) (.error fault : Except Fault α) := meets_error (.inl h)

theorem meets_scalarValue {has : Tag → String → Prop} {tag : Tag} {text : String}
    (h : has tag text) : Meets (Explains has) (scalarValue tag text) :=
  fun _ hfault => .inr ⟨tag, text, h, hfault⟩

/-- Some nodes have a scalar. -/
def AnyHas (items : List Node) (tag : Tag) (text : String) : Prop := ∃ n ∈ items, n.Has tag text

/-- Some pairs of nodes have a scalar. -/
def PairsHave (pairs : List (Node × Node)) (tag : Tag) (text : String) : Prop :=
  ∃ p ∈ pairs, p.1.Has tag text ∨ p.2.Has tag text

theorem PairsHave.mapping {pairs : List (Node × Node)} {tag : Tag} {text : String}
    (h : PairsHave pairs tag text) (t : Tag) : (Node.mapping t pairs).Has tag text := by
  obtain ⟨p, hp, hkey | hvalue⟩ := h
  · exact .key hp hkey
  · exact .value hp hvalue

theorem AnyHas.sequence {items : List Node} {tag : Tag} {text : String}
    (h : AnyHas items tag text) (t : Tag) : (Node.sequence t items).Has tag text := by
  obtain ⟨n, hn, hhas⟩ := h
  exact .item hn hhas

theorem AnyHas.tail {items : List Node} {n : Node} {tag : Tag} {text : String}
    (h : AnyHas items tag text) : AnyHas (n :: items) tag text := by
  obtain ⟨m, hm, hhas⟩ := h
  exact ⟨m, List.mem_cons_of_mem _ hm, hhas⟩

theorem PairsHave.tail {pairs : List (Node × Node)} {p : Node × Node} {tag : Tag} {text : String}
    (h : PairsHave pairs tag text) : PairsHave (p :: pairs) tag text := by
  obtain ⟨q, hq, hhas⟩ := h
  exact ⟨q, List.mem_cons_of_mem _ hq, hhas⟩

theorem meets_mapM_singlePair {has : Tag → String → Prop} {tag : Tag} (vs : List Value) :
    Meets (Explains has) (vs.mapM (singlePair tag)) := by
  induction vs with
  | nil => exact meets_ok
  | cons v rest ih =>
      rw [List.mapM_cons]
      refine .bind ?_ fun _ => ih.bind fun _ => meets_ok
      rw [singlePair.eq_def]
      split
      · exact meets_ok
      · exact meets_grammar rfl

mutual

theorem Node.meets_value : (n : Node) → Meets (Explains n.Has) n.value
  | .scalar tag text => by
      rw [Node.value]
      exact meets_scalarValue .scalar
  | .sequence tag items => by
      have hvalues := (meets_values items).scalars fun _ _ h => h.sequence tag
      unfold Node.value
      split
      case h_1 => exact .map hvalues
      case h_2 | h_3 =>
        exact .ite (.bind hvalues fun vs => .map (meets_mapM_singlePair vs)) (meets_grammar rfl)
      all_goals exact meets_grammar rfl
  | .mapping tag pairs => by
      have hentries := (meets_entries pairs).scalars fun _ _ h => h.mapping tag
      unfold Node.value
      split
      case h_1 | h_2 => exact .bind hentries fun _ => meets_ok
      case h_9 =>
        split
        · rename_i text h
          exact meets_scalarValue (.whole h)
        · exact meets_grammar rfl
      all_goals exact meets_grammar rfl

theorem meets_values : (items : List Node) → Meets (Explains (AnyHas items)) (values items)
  | [] => by
      rw [values]
      exact meets_ok
  | n :: rest => by
      rw [values]
      refine .bind (n.meets_value.scalars fun _ _ h => ⟨n, List.mem_cons_self .., h⟩) fun _ => ?_
      exact .bind ((meets_values rest).scalars fun _ _ h => h.tail) fun _ => meets_ok

theorem meets_entries :
    (pairs : List (Node × Node)) → Meets (Explains (PairsHave pairs)) (entries pairs)
  | [] => by
      rw [entries]
      exact meets_ok
  | (k, v) :: rest => by
      have hkey : Meets (Explains (PairsHave ((k, v) :: rest))) k.value :=
        k.meets_value.scalars fun _ _ h => ⟨_, List.mem_cons_self .., .inl h⟩
      have hvalue : Meets (Explains (PairsHave ((k, v) :: rest))) v.value :=
        v.meets_value.scalars fun _ _ h => ⟨_, List.mem_cons_self .., .inr h⟩
      have hmerged : Meets (Explains (PairsHave ((k, v) :: rest))) (mergedEntries v) :=
        (meets_mergedEntries v).scalars fun _ _ h => ⟨_, List.mem_cons_self .., .inr h⟩
      have hrest : Meets (Explains (PairsHave ((k, v) :: rest))) (entries rest) :=
        (meets_entries rest).scalars fun _ _ h => h.tail
      unfold entries
      split
      · exact hmerged.bind fun _ => hrest.bind fun _ => meets_ok
      · exact hvalue.bind fun _ => hrest.bind fun _ => meets_ok
      · refine hkey.bind fun key => .ite (meets_grammar rfl) ?_
        exact hvalue.bind fun _ => hrest.bind fun _ => meets_ok

theorem meets_mergedEntries : (n : Node) → Meets (Explains n.Has) (mergedEntries n)
  | .mapping tag pairs => by
      rw [mergedEntries]
      exact ((meets_entries pairs).scalars fun _ _ h => h.mapping tag).bind fun _ => meets_ok
  | .sequence tag items => by
      rw [mergedEntries]
      exact (meets_listEntries items).scalars fun _ _ h => h.sequence tag
  | .scalar tag text => by
      rw [mergedEntries]
      exact meets_grammar rfl

theorem meets_listEntries :
    (items : List Node) → Meets (Explains (AnyHas items)) (listEntries items)
  | [] => by
      rw [listEntries]
      exact meets_ok
  | .mapping tag pairs :: rest => by
      rw [listEntries]
      refine .bind ((meets_entries pairs).scalars fun _ _ h =>
        ⟨_, List.mem_cons_self .., h.mapping tag⟩) fun _ => ?_
      exact .bind ((meets_listEntries rest).scalars fun _ _ h => h.tail) fun _ => meets_ok
  | .sequence _ _ :: _ => by
      rw [listEntries]
      · exact meets_grammar rfl
      · nofun
  | .scalar _ _ :: _ => by
      rw [listEntries]
      · exact meets_grammar rfl
      · nofun

end

/-- **Faults.**  A text in block notation that cannot be read breaks the notation, or it
cannot be cut into tokens, or it has a scalar whose value cannot be made. -/
theorem fault_of_read {text : String} {fault : Fault} (h : read text = .error fault) :
    HasFault text fault := by
  rw [read] at h
  cases htokens : tokens text with
  | error fault' =>
      rw [htokens] at h
      cases h
      exact .cutting htokens
  | ok ts =>
      rw [htokens] at h
      cases htree : compose ts with
      | error fault' =>
          have hfault : fault' = fault := by
            simpa [htree, Bind.bind, Except.bind] using h
          exact .grammar (meets_compose ts fault (hfault ▸ htree))
      | ok found =>
          cases found with
          | none => simp [htree, Bind.bind, Except.bind, pure, Except.pure] at h
          | some n =>
              have hvalue : n.value = .error fault := by
                cases hv : n.value with
                | error fault' => simpa [htree, hv, Bind.bind, Except.bind] using h
                | ok v => simp [htree, hv, Bind.bind, Except.bind, pure, Except.pure] at h
              rcases n.meets_value fault hvalue with hgrammar | ⟨tag, s, hhas, hscalar⟩
              · exact .grammar hgrammar
              · exact .scalar htokens htree hhas hscalar

end UssdFlows.Yaml
