import UssdFlows.Proofs.Flow.Choices

/-!
# Definitions that cannot be examined

Reading a definition asks libraries for three things: the pattern of an input node, and
the texts that the key of an option, the comparand of a condition and the variables of a
flow are shown as.  A library may raise something that is no fault of the definition: a
pattern may ask for more repetitions than can be counted, and any of these may be nested
too deep.  No other reader raises anything, and so a definition raises something where
one of these does and nowhere else (`Flow.raises_ofDocument`).
-/

namespace UssdFlows

variable [Libraries]

/-- A text raises something when it is read as a pattern: it counts too far, or the
library gives up. -/
def Pattern.Raises (s : String) : Prop :=
  Libraries.pattern s = .error .repetitionTooLarge ∨
    ∃ why, Libraries.pattern s = .error (.raised why)

/-- A value raises something when it is shown as text. -/
def Value.Raises (v : Value) : Prop := ∃ why, Libraries.shown v = .error (.raised why)

/-! ## Scalars -/

section Leaves

omit [Libraries]

variable {v : Value} {α : Type}

@[simp]
theorem Value.not_raises_readText : ¬ v.readText.Raises := by
  cases v with
  | bytes octets =>
      rw [readText]
      split <;> simp
  | _ => simp [readText]

@[simp]
theorem Value.raises_readNullable {read : Value → Checked α} :
    (v.readNullable read).Raises ↔ v ≠ .null ∧ (read v).Raises := by
  cases v <;> simp [readNullable]

theorem Value.readNullable_of_ne_null {read : Value → Checked α} (h : v ≠ .null) :
    v.readNullable read = some <$> read v := by
  cases v <;> first | rfl | exact absurd rfl h

@[simp]
theorem Value.not_raises_readMember {ofText? : String → Option α} :
    ¬ (v.readMember ofText?).Raises := by
  cases v with
  | text s =>
      rw [readMember]
      split <;> simp
  | _ => simp [readMember]

@[simp]
theorem Value.not_raises_wholeOfReal {x : Binary64} : ¬ (wholeOfReal x).Raises := by
  rw [wholeOfReal]
  repeat' split
  all_goals simp

@[simp]
theorem Value.not_raises_wholeOfText {s : String} : ¬ (wholeOfText s).Raises := by
  rw [wholeOfText]
  repeat' split
  all_goals simp

/-- Octets are read as the text that they encode. -/
theorem Value.not_raises_decoded {octets : List Nat} {read : String → Checked α} {c : Cause}
    (hread : ∀ s, ¬ (read s).Raises) (hc : ∀ why, c ≠ .raised why) :
    ¬ (((decoded? octets).map read).getD (.fail c)).Raises := by
  cases decoded? octets with
  | none => simp [hc]
  | some s => exact hread s

@[simp]
theorem Value.not_raises_readWhole : ¬ v.readWhole.Raises := by
  cases v with
  | real x => exact not_raises_wholeOfReal
  | text s => exact not_raises_wholeOfText
  | bytes octets => exact not_raises_decoded (fun _ => not_raises_wholeOfText) nofun
  | _ => simp [readWhole]

@[simp]
theorem Value.not_raises_realOfText {s : String} : ¬ (realOfText s).Raises := by
  rw [realOfText]
  split <;> simp

@[simp]
theorem Value.not_raises_readReal : ¬ v.readReal.Raises := by
  cases v with
  | int n =>
      rw [readReal]
      split <;> simp
  | text s => exact not_raises_realOfText
  | bytes octets => exact not_raises_decoded (fun _ => not_raises_realOfText) nofun
  | _ => simp [readReal]

@[simp]
theorem Value.not_raises_truthOfInt {n : Int} : ¬ (truthOfInt n).Raises := by
  rw [truthOfInt]
  repeat' split
  all_goals simp

@[simp]
theorem Value.not_raises_truthOfText {s : String} : ¬ (truthOfText s).Raises := by
  rw [truthOfText]
  repeat' split
  all_goals simp

@[simp]
theorem Value.not_raises_readTruth : ¬ v.readTruth.Raises := by
  cases v with
  | int n =>
      rw [readTruth]
      split <;> simp
  | real x =>
      rw [readTruth]
      split <;> simp
  | text s => exact not_raises_truthOfText
  | bytes octets => exact not_raises_decoded (fun _ => not_raises_truthOfText) nofun
  | _ => simp [readTruth]

@[simp]
theorem Amount.not_raises_ofValue : ¬ (ofValue v).Raises := by
  rw [ofValue, Checked.raises_andThen]
  rintro (h | ⟨x, -, h⟩)
  · exact Value.not_raises_readReal h
  · split at h <;> simp at h

@[simp]
theorem Method.not_raises_ofValue : ¬ (ofValue v).Raises := by
  rw [ofValue, Checked.raises_andThen]
  rintro (h | ⟨s, -, h⟩)
  · exact Value.not_raises_readText h
  · split at h <;> simp at h

@[simp]
theorem Value.not_raises_readTarget : ¬ v.readTarget.Raises := by
  simp [readTarget]

end Leaves

/-! ## Texts that values are shown as -/

section Shown

variable {v : Value}

@[simp]
theorem Value.raises_readShown : v.readShown.Raises ↔ v.Raises := by
  rw [readShown, Raises]
  split <;> simp [*]

@[simp]
theorem Value.raises_readComparand : v.readComparand.Raises ↔ v ≠ .null ∧ v.Raises := by
  cases v with
  | null => simp [readComparand]
  | _ => simp [readComparand]

@[simp]
theorem MenuOption.raises_readKey : (readKey v).Raises ↔ v ≠ .null ∧ v.Raises := by
  by_cases hnull : v = .null
  · subst hnull
    simp [readKey]
  · rw [readKey_of_ne_null hnull, Checked.raises_andThen]
    constructor
    · rintro (h | ⟨s, -, h⟩)
      · exact ⟨hnull, Value.raises_readShown.1 h⟩
      · split at h <;> simp at h
    · rintro ⟨-, h⟩
      exact .inl (Value.raises_readShown.2 h)

theorem MenuOption.raises_ofValue : (ofValue v).Raises ↔ ∃ members k, v = .record members ∧
    Naming.either.value? members "key" = some k ∧ k ≠ .null ∧ k.Raises := by
  simp [ofValue, Value.raises_readRecord]

theorem Value.raises_readOptions : v.readOptions.Raises ↔ ∃ items members k, v = .list items ∧
    .record members ∈ items ∧ Naming.either.value? members "key" = some k ∧ k ≠ .null ∧
      k.Raises := by
  cases v with
  | list items =>
      simp only [readOptions, Checked.raises_items, MenuOption.raises_ofValue, list.injEq]
      constructor
      · rintro ⟨_, hv, members, k, rfl, hk⟩
        exact ⟨items, members, k, rfl, hv, hk⟩
      · rintro ⟨_, members, k, rfl, hv, hk⟩
        exact ⟨_, hv, members, k, rfl, hk⟩
  | _ => simp [readOptions]

theorem Condition.raises_ofValue : (ofValue v).Raises ↔ ∃ members w, v = .record members ∧
    Naming.either.value? members "value" = some w ∧ w ≠ .null ∧ w.Raises := by
  simp [ofValue, Value.raises_readRecord]

end Shown

/-! ## Patterns -/

/-- An empty text is no pattern. -/
theorem InputSpec.raises_readPattern {v : Value} :
    (readPattern v).Raises ↔ ∃ s, v.readText = .ok s ∧ s ≠ "" ∧ Pattern.Raises s := by
  by_cases hnull : v = .null
  · subst hnull
    simp [readPattern, Value.readNullable, Value.readText, Checked.andThen, Checked.fail]
  · rw [readPattern, Value.readNullable_of_ne_null hnull, Checked.raises_andThen]
    cases hread : v.readText with
    | bad ps =>
        have hleaf := Value.not_raises_readText (v := v)
        rw [hread] at hleaf
        simp [hleaf, Checked.map_eq_ok_iff]
    | ok s =>
        by_cases hempty : s = ""
        · simp [Checked.map_eq_ok_iff, hempty]
        · simp only [Checked.raises_map, Checked.raises_ok, false_or, Checked.map_eq_ok_iff,
            Checked.ok.injEq, exists_eq_left', if_neg hempty]
          cases hp : Libraries.pattern s with
          | ok p => simp [Pattern.Raises, hp]
          | error fault => cases fault <;> simp [Pattern.Raises, hp, hempty]

/-- What a document says of an input node raises something in the pattern, and nowhere
else. -/
theorem InputSpec.raises_ofValue {v : Value} : (ofValue v).Raises ↔ ∃ spec p s,
    v = .record spec ∧ Naming.either.value? spec "pattern" = some p ∧ p.readText = .ok s ∧
      s ≠ "" ∧ Pattern.Raises s := by
  simp [ofValue, Value.raises_readRecord, raises_readPattern]

/-! ## Nodes -/

/-- What makes the reading of a node raise something. -/
inductive Node.Raises (members : List (Value × Value)) : Prop
  /-- The pattern of an input. -/
  | pattern {spec : List (Value × Value)} {p : Value} {s : String}
      (hkind : Value.member? members "kind" = some (.text NodeKind.input.text))
      (hspec : Naming.either.value? members "input_spec" = some (.record spec))
      (hp : Naming.either.value? spec "pattern" = some p) (hs : p.readText = .ok s)
      (hne : s ≠ "") (h : Pattern.Raises s)
  /-- The key of an option of a menu. -/
  | key {items : List Value} {option : List (Value × Value)} {k : Value}
      (hkind : Value.member? members "kind" = some (.text NodeKind.menu.text))
      (hitems : Naming.either.value? members "options" = some (.list items))
      (hoption : .record option ∈ items) (hk : Naming.either.value? option "key" = some k)
      (hnull : k ≠ .null) (h : k.Raises)
  /-- The value that a condition compares with. -/
  | comparand {condition : List (Value × Value)} {v : Value}
      (hkind : Value.member? members "kind" = some (.text NodeKind.conditional.text))
      (hcondition : Naming.either.value? members "condition" = some (.record condition))
      (hv : Naming.either.value? condition "value" = some v) (hnull : v ≠ .null) (h : v.Raises)

omit [Libraries] in
theorem NodeKind.ofText?_eq_some_iff {s : String} {k : NodeKind} :
    ofText? s = some k ↔ s = k.text := by
  constructor
  · intro h
    have hk := List.find?_some h
    exact (eq_of_beq hk).symm
  · rintro rfl
    cases k <;> decide +kernel

/-- The three kinds of nodes of which a document can say something that raises. -/
theorem Behaviour.raises_ofMembers {members : List (Value × Value)} {k : NodeKind} :
    (ofMembers members k).Raises ↔
      (k = .input ∧ ∃ v, Naming.either.value? members "input_spec" = some v ∧
        (InputSpec.ofValue v).Raises) ∨
      (k = .menu ∧ ∃ v, Naming.either.value? members "options" = some v ∧
        v.readOptions.Raises) ∨
      k = .conditional ∧ ∃ v, Naming.either.value? members "condition" = some v ∧
        (Condition.ofValue v).Raises := by
  cases k <;> simp [ofMembers, ofMembers.target]

/-- A node raises what its behaviour does, if its kind is known. -/
theorem Node.raises_ofMembers_kind {members : List (Value × Value)} {name : Value} :
    (ofMembers members (some name)).Raises ↔ ∃ k,
      Value.member? members "kind" = some (.text (NodeKind.text k)) ∧
        (Behaviour.ofMembers members k).Raises := by
  rw [ofMembers]
  cases hm : Value.member? members "kind" with
  | none => simp
  | some tag =>
      cases tag with
      | text t =>
          cases hk : NodeKind.ofText? t with
          | none =>
              have hno (k : NodeKind) : t ≠ k.text := by
                intro h
                rw [NodeKind.ofText?_eq_some_iff.2 h] at hk
                cases hk
              simp [hk, hno]
          | some k =>
              have hsame (k' : NodeKind) : t = k'.text ↔ k = k' := by
                rw [← NodeKind.ofText?_eq_some_iff, hk, Option.some.injEq]
              simp [hk, hsame]
      | _ => simp

theorem Node.raises_ofMembers {members : List (Value × Value)} {name : Value} :
    (ofMembers members (some name)).Raises ↔ Raises members := by
  rw [raises_ofMembers_kind]
  constructor
  · rintro ⟨k, hk, h⟩
    rcases Behaviour.raises_ofMembers.1 h with ⟨rfl, v, hv, h⟩ | ⟨rfl, v, hv, h⟩ | ⟨rfl, v, hv, h⟩
    · obtain ⟨spec, p, s, rfl, hp, hs, hne, h⟩ := InputSpec.raises_ofValue.1 h
      exact .pattern hk hv hp hs hne h
    · obtain ⟨items, option, key, rfl, hoption, hkey, hnull, h⟩ := Value.raises_readOptions.1 h
      exact .key hk hv hoption hkey hnull h
    · obtain ⟨condition, w, rfl, hw, hnull, h⟩ := Condition.raises_ofValue.1 h
      exact .comparand hk hv hw hnull h
  · rintro (⟨hk, hspec, hp, hs, hne, h⟩ | ⟨hk, hitems, hoption, hkey, hnull, h⟩ |
      ⟨hk, hcondition, hv, hnull, h⟩)
    · exact ⟨.input, hk, Behaviour.raises_ofMembers.2 (.inl ⟨rfl, _, hspec,
        InputSpec.raises_ofValue.2 ⟨_, _, _, rfl, hp, hs, hne, h⟩⟩)⟩
    · exact ⟨.menu, hk, Behaviour.raises_ofMembers.2 (.inr (.inl ⟨rfl, _, hitems,
        Value.raises_readOptions.2 ⟨_, _, _, rfl, hoption, hkey, hnull, h⟩⟩))⟩
    · exact ⟨.conditional, hk, Behaviour.raises_ofMembers.2 (.inr (.inr ⟨rfl, _, hcondition,
        Condition.raises_ofValue.2 ⟨_, _, rfl, hv, hnull, h⟩⟩))⟩

namespace Flow

theorem raises_readEntry {name node : Value} :
    (readEntry name node).Raises ↔ ∃ members, node = .record members ∧ Node.Raises members := by
  simp [readEntry, Value.raises_readRecord, Node.raises_ofMembers]

/-- Entries are read one by one, whatever is wrong with the others. -/
theorem raises_readEntries {entries : List (Value × Value)} :
    (entries.foldr (fun e rest => List.cons <$> readEntry e.1 e.2 <*> rest) (.ok [])).Raises ↔
      ∃ e ∈ entries, (readEntry e.1 e.2).Raises := by
  induction entries with
  | nil => simp
  | cons e rest ih => simp [ih]

theorem raises_readNodes {v : Value} : (readNodes v).Raises ↔ ∃ entries, v = .record entries ∧
    ∃ name members, (name, .record members) ∈ entries ∧ Node.Raises members := by
  cases v with
  | record entries =>
      rw [readNodes, Checked.raises_map, raises_readEntries]
      simp only [raises_readEntry, Value.record.injEq, exists_eq_left']
      constructor
      · rintro ⟨⟨name, _⟩, he, members, rfl, h⟩
        exact ⟨name, members, he, h⟩
      · rintro ⟨name, members, he, h⟩
        exact ⟨_, he, members, rfl, h⟩
  | _ => simp [readNodes]

/-! ## Variables -/

/-- The first variable that cannot be read raises something: its name does, or else its
value. -/
def VariableRaises (entries : List (Value × Value)) : Prop :=
  ∃ before name value after, entries = before ++ (name, value) :: after ∧
    (∀ e ∈ before, ∃ x, readVariable e.1 e.2 = .ok x) ∧
    (name.Raises ∨ (∃ s, Libraries.shown name = .ok s) ∧ value ≠ .null ∧ value.Raises)

theorem raises_readVariable {name value : Value} : (readVariable name value).Raises ↔
    name.Raises ∨ (∃ s, Libraries.shown name = .ok s) ∧ value ≠ .null ∧ value.Raises := by
  simp [readVariable, Checked.raises_andThen, Value.readShown_eq_ok_iff]

theorem not_variableRaises_nil : ¬ VariableRaises [] := by
  rintro ⟨before, name, value, after, hsplit, -, -⟩
  exact List.append_ne_nil_of_right_ne_nil before (List.cons_ne_nil _ after) hsplit.symm

theorem variableRaises_cons {e : Value × Value} {rest : List (Value × Value)} :
    VariableRaises (e :: rest) ↔ (readVariable e.1 e.2).Raises ∨
      (∃ x, readVariable e.1 e.2 = .ok x) ∧ VariableRaises rest := by
  constructor
  · rintro ⟨before, name, value, after, hsplit, hbefore, h⟩
    cases before with
    | nil =>
        cases hsplit
        exact .inl (raises_readVariable.2 h)
    | cons e' before =>
        cases hsplit
        have hrest := fun e' he' => hbefore e' (List.mem_cons_of_mem e he')
        exact .inr ⟨hbefore e List.mem_cons_self, before, name, value, after, rfl, hrest, h⟩
  · rintro (h | ⟨hx, before, name, value, after, rfl, hbefore, h⟩)
    · exact ⟨[], e.1, e.2, rest, rfl, by simp, raises_readVariable.1 h⟩
    · exact ⟨e :: before, name, value, after, rfl, List.forall_mem_cons.2 ⟨hx, hbefore⟩, h⟩

theorem raises_readVariables {v : Value} :
    (readVariables v).Raises ↔ ∃ entries, v = .record entries ∧ VariableRaises entries := by
  cases v with
  | record entries =>
      rw [readVariables, Checked.raises_map]
      simp only [Value.record.injEq, exists_eq_left']
      induction entries with
      | nil => simp [not_variableRaises_nil]
      | cons e rest ih =>
          rw [List.foldr_cons, Checked.raises_andThen, variableRaises_cons]
          simp only [Checked.raises_map, ih, exists_and_right]
  | _ => simp [readVariables]

/-! ## Definitions -/

theorem raises_ofMembers {spareId : String} {members : List (Value × Value)} :
    (ofMembers spareId members).Raises ↔
      (∃ name node, (name, .record node) ∈ nodeEntries members ∧ Node.Raises node) ∨
        ∃ entries, Naming.either.value? members "variables" = some (.record entries) ∧
          VariableRaises entries := by
  have hversion {v : Value} : ¬ (Checked.atLeast 1 v.readWhole).Raises := by
    rw [Checked.atLeast, Checked.raises_andThen]
    rintro (h | ⟨n, -, h⟩)
    · exact Value.not_raises_readWhole h
    · split at h <;> simp at h
  have hparts : (ofMembers spareId members).Raises ↔
      (∃ v, Value.member? members "nodes" = some v ∧ (readNodes v).Raises) ∨
        ∃ v, Naming.either.value? members "variables" = some v ∧ (readVariables v).Raises := by
    simp [ofMembers, value?_nodes, hversion]
  rw [hparts]
  refine or_congr ?_ ?_
  · rw [nodeEntries]
    cases h : Value.member? members "nodes" with
    | none => simp
    | some v => cases v <;> simp [raises_readNodes]
  · simp only [raises_readVariables]
    constructor
    · rintro ⟨_, hv, entries, rfl, h⟩
      exact ⟨entries, hv, h⟩
    · rintro ⟨entries, hv, h⟩
      exact ⟨_, hv, entries, rfl, h⟩

/-- What makes the reading of a definition raise something.  If a node contradicts the name
under which it stands, the two are shown and nothing else is looked at. -/
inductive Raises : Value → Prop
  /-- The name of a node that contradicts it. -/
  | name {members : List (Value × Value)} {name declared : Value}
      (hc : contradiction? (nodeEntries members) = some (name, declared))
      (h : (readQuoted name).Raises) : Raises (.record members)
  /-- The id of a node that contradicts its name. -/
  | declared {members : List (Value × Value)} {name declared : Value} {s : String}
      (hc : contradiction? (nodeEntries members) = some (name, declared))
      (hs : readQuoted name = .ok s) (h : (readQuoted declared).Raises) : Raises (.record members)
  /-- A node. -/
  | node {members node : List (Value × Value)} {name : Value}
      (hc : contradiction? (nodeEntries members) = none)
      (hnode : (name, .record node) ∈ nodeEntries members) (h : Node.Raises node) :
      Raises (.record members)
  /-- A variable. -/
  | variable {members entries : List (Value × Value)}
      (hc : contradiction? (nodeEntries members) = none)
      (hv : Naming.either.value? members "variables" = some (.record entries))
      (h : VariableRaises entries) : Raises (.record members)

theorem raises_mismatch {name declared : Value} : (mismatch name declared).Raises ↔
    (readQuoted name).Raises ∨ (∃ s, readQuoted name = .ok s) ∧ (readQuoted declared).Raises := by
  simp [mismatch, Checked.raises_andThen]

/-- **Definitions.** -/
theorem raises_ofDocument {spareId : String} {document : Value} :
    (ofDocument spareId document).Raises ↔ Raises document := by
  rw [ofDocument, Value.raises_readRecord (by nofun)]
  constructor
  · rintro ⟨members, rfl, h⟩
    cases hc : contradiction? (nodeEntries members) with
    | some e =>
        obtain ⟨name, declared⟩ := e
        simp only [hc] at h
        rcases raises_mismatch.1 h with h | ⟨⟨s, hs⟩, h⟩
        · exact .name hc h
        · exact .declared hc hs h
    | none =>
        simp only [hc] at h
        rcases raises_ofMembers.1 h with ⟨name, node, hnode, h⟩ | ⟨entries, hv, h⟩
        · exact .node hc hnode h
        · exact .variable hc hv h
  · rintro (⟨hc, h⟩ | ⟨hc, hs, h⟩ | ⟨hc, hnode, h⟩ | ⟨hc, hv, h⟩)
    · exact ⟨_, rfl, by simpa only [hc] using raises_mismatch.2 (.inl h)⟩
    · exact ⟨_, rfl, by simpa only [hc] using raises_mismatch.2 (.inr ⟨⟨_, hs⟩, h⟩)⟩
    · exact ⟨_, rfl, by simpa only [hc] using raises_ofMembers.2 (.inl ⟨_, _, hnode, h⟩)⟩
    · exact ⟨_, rfl, by simpa only [hc] using raises_ofMembers.2 (.inr ⟨_, hv, h⟩)⟩

end Flow

end UssdFlows
