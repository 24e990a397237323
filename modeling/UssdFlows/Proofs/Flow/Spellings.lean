import Mathlib.Data.List.Find
import Mathlib.Data.List.Forall2
import Mathlib.Data.Option.Basic
import UssdFlows.Flow.Loading

/-!
# Spellings

The names of the fields of a definition may be spelled in two ways, and it does
not matter which one is used: definitions that differ in the spelling of some
fields of the flow, of its nodes, and of their options, input specifications
and conditions are read as the same flow, or have the same problems
(`Flow.load_respelled`).

Two records are compared member by member (`Naming.Respelled`): members are the
same, or they are of one field, each under a spelling of it, and have values
that are compared likewise.  No record has both spellings of one of its fields.
Then each look-up of a field finds values that are compared likewise
(`Naming.Respelled.value?`), and whatever is read from one record is read from
the other.
-/

namespace UssdFlows

open List (Forall₂)

/-! ## Records -/

namespace Naming

variable {α : Type} {fields own : List String} {Same : String → Value → Value → Prop}
  {ms ms' : List (Value × Value)} {m m' : Value × Value} {f : String}

/-- One member stands for another: it is the same one, or both are of one field,
and their values stand for one another. -/
inductive Respells (fields : List String) (Same : String → Value → Value → Prop) :
    Value × Value → Value × Value → Prop
  | same (m : Value × Value) : Respells fields Same m m
  | field {f a b : String} {v v' : Value} (hf : f ∈ fields)
      (ha : a ∈ either.spellings f) (hb : b ∈ either.spellings f) (hv : Same f v v') :
      Respells fields Same (.text a, v) (.text b, v')

/-- A record does not have a field under both of its spellings. -/
def IsPlain (ms : List (Value × Value)) (f : String) : Prop :=
  (Value.member? ms (camelCase f)).isSome → (Value.member? ms f).isSome → camelCase f = f

instance (ms : List (Value × Value)) (f : String) : Decidable (IsPlain ms f) :=
  inferInstanceAs (Decidable ((Value.member? ms (camelCase f)).isSome →
    (Value.member? ms f).isSome → camelCase f = f))

/-- The members of one record stand for those of the other, and neither has one
of its own fields under both spellings. -/
structure Respelled (fields own : List String) (Same : String → Value → Value → Prop)
    (ms ms' : List (Value × Value)) : Prop where
  members : Forall₂ (Respells fields Same) ms ms'
  plain : ∀ f ∈ own, IsPlain ms f
  plain' : ∀ f ∈ own, IsPlain ms' f

/-- No spelling of one field is a spelling of another. -/
def Apart (fields : List String) : Prop :=
  ∀ f ∈ fields, ∀ g ∈ fields, ∀ a ∈ either.spellings f, a ∈ either.spellings g → f = g

instance (fields : List String) : Decidable (Apart fields) :=
  inferInstanceAs (Decidable (∀ f ∈ fields, ∀ g ∈ fields, ∀ a ∈ either.spellings f,
    a ∈ either.spellings g → f = g))

/-- Whether a member is of a field, under either spelling. -/
def isOf (f : String) (m : Value × Value) : Bool :=
  Value.sameName m.1 (.text (camelCase f)) || Value.sameName m.1 (.text f)

theorem isOf_text {a : String} {v : Value} : isOf f (.text a, v) = true ↔ a ∈ either.spellings f := by
  simp [isOf, either, Value.sameName_text]

/-- A field with one spelling only is looked up under it. -/
theorem value?_of_one (hone : camelCase f = f) : either.value? ms f = Value.member? ms f := by
  show [camelCase f, f].findSome? (Value.member? ms) = _
  rw [hone]
  cases hm : Value.member? ms f <;> simp [List.findSome?, hm]

/-- Without two spellings of a field, the first member that is of it counts. -/
theorem value?_of_isPlain (h : IsPlain ms f) :
    either.value? ms f = (ms.find? (isOf f)).map Prod.snd := by
  have hvalue : either.value? ms f = (Value.member? ms (camelCase f)).or (Value.member? ms f) := by
    show [camelCase f, f].findSome? (Value.member? ms) = _
    cases hcamel : Value.member? ms (camelCase f) <;>
      cases hplain : Value.member? ms f <;> simp [List.findSome?, hcamel, hplain]
  -- a name that no member has does not count
  have skip : ∀ p q : Value × Value → Bool, ms.find? p = none →
      ms.find? (fun m => p m || q m) = ms.find? q := fun p q hnone =>
    List.find?_congr fun m hm => by
      rw [List.find?_eq_none] at hnone
      rw [Bool.eq_false_iff.2 (hnone m hm), Bool.false_or]
  rw [hvalue]
  by_cases hone : camelCase f = f
  · have hisOf : ∀ m, isOf f m = Value.sameName m.1 (.text f) := fun m => by
      rw [isOf, hone, Bool.or_self]
    rw [hone, Option.or_self, List.find?_congr fun m _ => hisOf m]
    rfl
  · cases hcamel : Value.member? ms (camelCase f) with
    | none =>
        rw [Option.none_or, Value.member?]
        exact congrArg _ (skip _ _ (Option.map_eq_none_iff.1 hcamel)).symm
    | some v =>
        have hnone : Value.member? ms f = none := by
          rw [← Option.not_isSome_iff_eq_none]
          exact fun hsome => hone (h (by rw [hcamel]; rfl) hsome)
        rw [Option.some_or, ← hcamel, Value.member?]
        refine congrArg _ ((skip _ _ (Option.map_eq_none_iff.1 hnone)).symm.trans ?_)
        exact List.find?_congr fun m _ => Bool.or_comm ..

/-- Members that stand for one another are of the same fields. -/
theorem Respells.isOf (h : Respells fields Same m m') (apart : Apart fields) (hf : f ∈ fields) :
    isOf f m = isOf f m' := by
  cases h with
  | same m => rfl
  | @field g a b v v' hg ha hb _ =>
      rw [Bool.eq_iff_iff, isOf_text, isOf_text]
      constructor
      · intro hfa
        exact apart f hf g hg a hfa ha ▸ hb
      · intro hfb
        exact apart f hf g hg b hfb hb ▸ ha

theorem Respells.value (h : Respells fields Same m m') (apart : Apart fields) (hf : f ∈ fields)
    (refl : ∀ f v, Same f v v) (hm : Naming.isOf f m = true) : Same f m.2 m'.2 := by
  cases h with
  | same m => exact refl f m.2
  | @field g a b v v' hg ha _ hv =>
      rw [isOf_text] at hm
      rw [apart f hf g hg a hm ha]
      exact hv

theorem find?_respelled (h : Forall₂ (Respells fields Same) ms ms') (apart : Apart fields)
    (hf : f ∈ fields) (refl : ∀ f v, Same f v v) :
    Option.Rel (Same f) ((ms.find? (isOf f)).map Prod.snd) ((ms'.find? (isOf f)).map Prod.snd) := by
  induction h with
  | nil => exact .none
  | @cons m m' rest rest' hm _ ih =>
      have hisOf := hm.isOf apart hf
      by_cases hfound : isOf f m = true
      · rw [List.find?_cons_of_pos hfound, List.find?_cons_of_pos (hisOf ▸ hfound)]
        exact .some (hm.value apart hf refl hfound)
      · rw [List.find?_cons_of_neg hfound, List.find?_cons_of_neg (hisOf ▸ hfound)]
        exact ih

/-- A look-up finds values that stand for one another. -/
theorem Respelled.value? (h : Respelled fields own Same ms ms') (apart : Apart fields)
    (refl : ∀ f v, Same f v v) (hf : f ∈ fields) (hown : f ∈ own ∨ camelCase f = f) :
    Option.Rel (Same f) (either.value? ms f) (either.value? ms' f) := by
  have hplain : IsPlain ms f := hown.elim (h.plain f) fun hone _ _ => hone
  have hplain' : IsPlain ms' f := hown.elim (h.plain' f) fun hone _ _ => hone
  rw [value?_of_isPlain hplain, value?_of_isPlain hplain']
  exact find?_respelled h.members apart hf refl

variable {R : Value → Value → Prop} {read : Value → Checked α}

theorem required_congr (h : Option.Rel R (either.value? ms f) (either.value? ms' f))
    (hread : ∀ v v', R v v' → read v = read v') :
    either.required ms f read = either.required ms' f read := by
  rw [required, required]
  generalize either.value? ms f = found at h
  generalize either.value? ms' f = found' at h
  cases h with
  | none => rfl
  | some hv => exact congrArg (Checked.inside _) (hread _ _ hv)

theorem optional_congr (h : Option.Rel R (either.value? ms f) (either.value? ms' f)) {absent : α}
    (hread : ∀ v v', R v v' → read v = read v') :
    either.optional ms f absent read = either.optional ms' f absent read := by
  rw [optional, optional]
  generalize either.value? ms f = found at h
  generalize either.value? ms' f = found' at h
  cases h with
  | none => rfl
  | some hv => exact congrArg (Checked.inside _) (hread _ _ hv)

end Naming

/-! ## Values -/

namespace Value

/-- Two values are records whose members are related. -/
def BothRecords (R : List (Value × Value) → List (Value × Value) → Prop) (v v' : Value) : Prop :=
  ∃ ms ms', v = record ms ∧ v' = record ms' ∧ R ms ms'

/-- Two values are lists whose items are related. -/
def BothLists (R : Value → Value → Prop) (v v' : Value) : Prop :=
  ∃ items items', v = list items ∧ v' = list items' ∧ Forall₂ R items items'

theorem BothRecords.readRecord_eq {α : Type} {R : List (Value × Value) → List (Value × Value) → Prop}
    {v v' : Value} (h : v.BothRecords R v') (other : Cause)
    {read : List (Value × Value) → Checked α} (hread : ∀ ms ms', R ms ms' → read ms = read ms') :
    readRecord other read v = readRecord other read v' := by
  obtain ⟨ms, ms', rfl, rfl, hms⟩ := h
  exact hread ms ms' hms

end Value

/-- Items that are read alike give the same list, and the same problems. -/
theorem Checked.items_congr {α : Type} {read : Value → Checked α} {vs vs' : List Value}
    (h : Forall₂ (fun v v' => read v = read v') vs vs') (i : Nat) :
    items read i vs = items read i vs' := by
  induction h generalizing i with
  | nil => rfl
  | cons hv _ ih => rw [items, items, hv, ih]

/-! ## Options, input specifications and conditions -/

namespace MenuOption

/-- The fields of an option. -/
def fields : List String := ["key", "text", "target_node_id"]

theorem fields_apart : Naming.Apart fields := by decide

/-- One option is written for another. -/
def Respelled : Value → Value → Prop :=
  Value.BothRecords (Naming.Respelled fields fields fun _ => Eq)

theorem ofValue_respelled {v v' : Value} (h : Respelled v v') : ofValue v = ofValue v' := by
  refine h.readRecord_eq .notRecord fun ms ms' hms => ?_
  have found (f : String) (hf : f ∈ fields) := hms.value? fields_apart (fun _ _ => rfl) hf (.inl hf)
  rw [Naming.required_congr (found "key" (by decide)) fun _ _ hv => congrArg _ hv,
    Naming.optional_congr (found "text" (by decide)) fun _ _ hv => congrArg _ hv,
    Naming.optional_congr (found "target_node_id" (by decide)) fun _ _ hv => congrArg _ hv]

/-- One list of options is written for another. -/
def RespelledList : Value → Value → Prop := Value.BothLists fun v v' => v = v' ∨ Respelled v v'

theorem readOptions_respelled {v v' : Value} (h : RespelledList v v') :
    v.readOptions = v'.readOptions := by
  obtain ⟨items, items', rfl, rfl, hitems⟩ := h
  exact Checked.items_congr
    (hitems.imp fun v v' hv => hv.elim (congrArg ofValue) ofValue_respelled) 0

end MenuOption

namespace InputSpec

/-- The fields of an input specification. -/
def fields : List String := ["variable_name", "required", "pattern"]

theorem fields_apart : Naming.Apart fields := by decide

/-- One input specification is written for another. -/
def Respelled : Value → Value → Prop :=
  Value.BothRecords (Naming.Respelled fields fields fun _ => Eq)

theorem ofValue_respelled {v v' : Value} (h : Respelled v v') : ofValue v = ofValue v' := by
  refine h.readRecord_eq .notRecord fun ms ms' hms => ?_
  have found (f : String) (hf : f ∈ fields) := hms.value? fields_apart (fun _ _ => rfl) hf (.inl hf)
  rw [Naming.optional_congr (found "variable_name" (by decide)) fun _ _ hv => congrArg _ hv,
    Naming.optional_congr (found "required" (by decide)) fun _ _ hv => congrArg _ hv,
    Naming.optional_congr (found "pattern" (by decide)) fun _ _ hv => congrArg _ hv]

end InputSpec

namespace Condition

/-- The fields of a condition. -/
def fields : List String := ["variable", "operator", "value"]

theorem fields_apart : Naming.Apart fields := by decide

/-- One condition is written for another. -/
def Respelled : Value → Value → Prop :=
  Value.BothRecords (Naming.Respelled fields fields fun _ => Eq)

theorem ofValue_respelled {v v' : Value} (h : Respelled v v') : ofValue v = ofValue v' := by
  refine h.readRecord_eq .notRecord fun ms ms' hms => ?_
  have found (f : String) (hf : f ∈ fields) := hms.value? fields_apart (fun _ _ => rfl) hf (.inl hf)
  rw [Naming.required_congr (found "variable" (by decide)) fun _ _ hv => congrArg _ hv,
    Naming.optional_congr (found "operator" (by decide)) fun _ _ hv => congrArg _ hv,
    Naming.optional_congr (found "value" (by decide)) fun _ _ hv => congrArg _ hv]

end Condition

/-! ## Nodes -/

/-- The fields of a kind of node, besides its text. -/
def Behaviour.fields : NodeKind → List String
  | .menu => ["options"]
  | .input => ["input_spec", "next_node_id"]
  | .conditional => ["condition", "success_node_id", "failure_node_id", "next_node_id"]
  | .payment => ["success_node_id", "failure_node_id", "amount", "currency"]
  | .api => ["success_node_id", "failure_node_id", "url", "method"]
  | .terminal => []

namespace Node

/-- The fields of nodes of all kinds. -/
def fields : List String :=
  ["kind", "id", "text", "options", "input_spec", "condition", "next_node_id", "success_node_id",
    "failure_node_id", "amount", "currency", "url", "method"]

theorem fields_apart : Naming.Apart fields := by decide

/-- The kind that a node tells. -/
def kindOf? (ms : List (Value × Value)) : Option NodeKind :=
  match Value.member? ms "kind" with
  | some (.text s) => NodeKind.ofText? s
  | _ => none

/-- The fields that a node has by its kind. -/
def ownFields (ms : List (Value × Value)) : List String :=
  match kindOf? ms with
  | some kind => Behaviour.fields kind
  | none => []

/-- Values that stand for one another under a field. -/
def Same (f : String) (v v' : Value) : Prop :=
  v = v' ∨ (f = "options" ∧ MenuOption.RespelledList v v') ∨
    (f = "input_spec" ∧ InputSpec.Respelled v v') ∨ (f = "condition" ∧ Condition.Respelled v v')

/-- One node is written for another. -/
def Respelled : Value → Value → Prop :=
  Value.BothRecords fun ms ms' => Naming.Respelled fields (ownFields ms) Same ms ms'

theorem eq_of_same {f : String} {v v' : Value} (h : Same f v v')
    (hf : f ∉ ["options", "input_spec", "condition"]) : v = v' := by
  obtain h | ⟨rfl, -⟩ | ⟨rfl, -⟩ | ⟨rfl, -⟩ := h
  · exact h
  all_goals exact absurd (by decide) hf

theorem readOptions_of_same {v v' : Value} (h : Same "options" v v') :
    v.readOptions = v'.readOptions := by
  obtain h | ⟨-, h⟩ | ⟨hf, -⟩ | ⟨hf, -⟩ := h
  · exact congrArg _ h
  · exact MenuOption.readOptions_respelled h
  all_goals exact absurd hf (by decide)

theorem inputSpec_of_same {v v' : Value} (h : Same "input_spec" v v') :
    InputSpec.ofValue v = InputSpec.ofValue v' := by
  obtain h | ⟨hf, -⟩ | ⟨-, h⟩ | ⟨hf, -⟩ := h
  · exact congrArg _ h
  · exact absurd hf (by decide)
  · exact InputSpec.ofValue_respelled h
  · exact absurd hf (by decide)

theorem condition_of_same {v v' : Value} (h : Same "condition" v v') :
    Condition.ofValue v = Condition.ofValue v' := by
  obtain h | ⟨hf, -⟩ | ⟨hf, -⟩ | ⟨-, h⟩ := h
  · exact congrArg _ h
  · exact absurd hf (by decide)
  · exact absurd hf (by decide)
  · exact Condition.ofValue_respelled h

/-- Two records in which the look-ups of a field find values that stand for one
another. -/
def Finds (ms ms' : List (Value × Value)) (f : String) : Prop :=
  Option.Rel (Same f) (Naming.either.value? ms f) (Naming.either.value? ms' f)

variable {ms ms' : List (Value × Value)} {f : String}

/-- A field without records in it is read alike. -/
theorem Finds.optional_eq {α : Type} (h : Finds ms ms' f)
    (hf : f ∉ ["options", "input_spec", "condition"]) (absent : α) (read : Value → Checked α) :
    Naming.either.optional ms f absent read = Naming.either.optional ms' f absent read :=
  Naming.optional_congr h fun _ _ hv => congrArg read (eq_of_same hv hf)

theorem behaviour_eq (kind : NodeKind) (h : ∀ f ∈ Behaviour.fields kind, Finds ms ms' f) :
    Behaviour.ofMembers ms kind = Behaviour.ofMembers ms' kind := by
  have target (f : String) (hf : f ∈ Behaviour.fields kind)
      (hplain : f ∉ ["options", "input_spec", "condition"]) :
      Behaviour.ofMembers.target ms f = Behaviour.ofMembers.target ms' f :=
    (h f hf).optional_eq hplain none Value.readTarget
  cases kind with
  | menu =>
      rw [Behaviour.ofMembers, Behaviour.ofMembers,
        Naming.optional_congr (h "options" (by decide)) fun _ _ => readOptions_of_same]
  | input =>
      rw [Behaviour.ofMembers, Behaviour.ofMembers, target "next_node_id" (by decide) (by decide),
        Naming.optional_congr (h "input_spec" (by decide)) fun _ _ => inputSpec_of_same]
  | conditional =>
      rw [Behaviour.ofMembers, Behaviour.ofMembers, target "success_node_id" (by decide) (by decide),
        target "failure_node_id" (by decide) (by decide),
        target "next_node_id" (by decide) (by decide),
        Naming.required_congr (h "condition" (by decide)) fun _ _ => condition_of_same]
  | payment =>
      rw [Behaviour.ofMembers, Behaviour.ofMembers, target "success_node_id" (by decide) (by decide),
        target "failure_node_id" (by decide) (by decide),
        (h "amount" (by decide)).optional_eq (by decide),
        (h "currency" (by decide)).optional_eq (by decide)]
  | api =>
      rw [Behaviour.ofMembers, Behaviour.ofMembers, target "success_node_id" (by decide) (by decide),
        target "failure_node_id" (by decide) (by decide),
        (h "url" (by decide)).optional_eq (by decide),
        (h "method" (by decide)).optional_eq (by decide)]
  | terminal => rfl

/-- A field that is found alike and has one spelling only has one value. -/
theorem member?_eq_of_finds (h : Finds ms ms' f) (hone : camelCase f = f)
    (hf : f ∉ ["options", "input_spec", "condition"]) :
    Value.member? ms f = Value.member? ms' f := by
  rw [Finds, Naming.value?_of_one hone, Naming.value?_of_one hone] at h
  generalize Value.member? ms f = found at h
  generalize Value.member? ms' f = found' at h
  cases h with
  | none => rfl
  | some hv => exact congrArg some (eq_of_same hv hf)

theorem fields_of_behaviour (kind : NodeKind) : ∀ f ∈ Behaviour.fields kind, f ∈ fields := by
  cases kind <;> decide

/-- A field of a node is found alike, if it has one spelling only, or is one of
the fields of its kind. -/
theorem finds_of_respelled (h : Naming.Respelled fields (ownFields ms) Same ms ms')
    (hf : f ∈ fields) (hown : f ∈ ownFields ms ∨ camelCase f = f) : Finds ms ms' f :=
  h.value? fields_apart (fun _ _ => .inl rfl) hf hown

theorem ofMembers_respelled (h : Naming.Respelled fields (ownFields ms) Same ms ms')
    (id : Option Value) : ofMembers ms id = ofMembers ms' id := by
  have kind : Value.member? ms "kind" = Value.member? ms' "kind" :=
    member?_eq_of_finds (finds_of_respelled h (by decide) (.inr (by decide)))
      (by decide) (by decide)
  have text : Finds ms ms' "text" := finds_of_respelled h (by decide) (.inr (by decide))
  unfold ofMembers
  rw [← kind]
  cases htag : Value.member? ms "kind" with
  | none => rfl
  | some tag =>
      cases tag with
      | text s =>
          cases hk : NodeKind.ofText? s with
          | none => simp only [hk]
          | some k =>
              have hown : ownFields ms = Behaviour.fields k := by
                rw [ownFields, kindOf?, htag]
                simp only [hk]
              have own : ∀ f ∈ Behaviour.fields k, Finds ms ms' f := fun f hf =>
                finds_of_respelled h (fields_of_behaviour k f hf) (.inl (hown ▸ hf))
              simp only [hk]
              rw [text.optional_eq (by decide), behaviour_eq k own]
      | _ => rfl

end Node

/-! ## Flows -/

namespace Flow

/-- The fields of a flow. -/
def fields : List String :=
  ["id", "name", "description", "version", "start_node_id", "nodes", "variables"]

theorem fields_apart : Naming.Apart fields := by decide

/-- One entry of the nodes stands for another: the node under the same name may
be written differently. -/
def SameEntry (e e' : Value × Value) : Prop := e.1 = e'.1 ∧ (e.2 = e'.2 ∨ Node.Respelled e.2 e'.2)

/-- Values that stand for one another under a field. -/
def Same (f : String) (v v' : Value) : Prop :=
  v = v' ∨ (f = "nodes" ∧ v.BothRecords (Forall₂ SameEntry) v')

/-- One definition is written for another: they differ in the spelling of fields
of the flow, of its nodes, and of their options, input specifications and
conditions, and no record has both spellings of one of its fields. -/
def Respelled (d d' : Value) : Prop :=
  d = d' ∨ d.BothRecords (Naming.Respelled fields fields Same) d'

variable {ms ms' entries entries' : List (Value × Value)} {d d' : Value}

theorem readEntry_eq {e e' : Value × Value} (h : SameEntry e e') :
    readEntry e.1 e.2 = readEntry e'.1 e'.2 := by
  obtain ⟨hname, hnode⟩ := h
  rw [← hname]
  obtain hnode | hnode := hnode
  · rw [hnode]
  · unfold readEntry
    rw [hnode.readRecord_eq .notAttributes fun ms ms' hms => Node.ofMembers_respelled hms (some e.1)]

theorem readNodes_eq {v v' : Value} (h : v.BothRecords (Forall₂ SameEntry) v') :
    readNodes v = readNodes v' := by
  obtain ⟨entries, entries', rfl, rfl, hentries⟩ := h
  rw [readNodes, readNodes]
  congr 1
  induction hentries with
  | nil => rfl
  | cons he _ ih => rw [List.foldr_cons, List.foldr_cons, readEntry_eq he, ih]

/-- The declared id of a node does not depend on the spelling of its fields. -/
theorem declared_eq {e e' : Value × Value} (h : SameEntry e e') : e.2.get? "id" = e'.2.get? "id" := by
  obtain hnode | hnode := h.2
  · rw [hnode]
  · obtain ⟨ms, ms', hv, hv', hms⟩ := hnode
    rw [hv, hv']
    exact Node.member?_eq_of_finds
      (Node.finds_of_respelled hms (by decide) (.inr (by decide))) (by decide) (by decide)

theorem contradiction?_eq (h : Forall₂ SameEntry entries entries') :
    contradiction? entries = contradiction? entries' := by
  induction h with
  | nil => rfl
  | @cons e e' _ _ he _ ih =>
      obtain ⟨name, node⟩ := e
      obtain ⟨name', node'⟩ := e'
      have hname : name = name' := he.1
      have hid : node.get? "id" = node'.get? "id" := declared_eq he
      simp only [contradiction?, List.findSome?_cons, hname, hid] at ih ⊢
      rw [ih]

/-- A look-up of a field of a flow finds values that stand for one another. -/
theorem value?_respelled (h : Naming.Respelled fields fields Same ms ms') {f : String}
    (hf : f ∈ fields) :
    Option.Rel (Same f) (Naming.either.value? ms f) (Naming.either.value? ms' f) :=
  h.value? fields_apart (fun _ _ => .inl rfl) hf (.inl hf)

theorem eq_of_same {f : String} {v v' : Value} (h : Same f v v') (hf : f ≠ "nodes") : v = v' :=
  h.elim (fun h => h) fun h => absurd h.1 hf

theorem readNodes_of_same {v v' : Value} (h : Same "nodes" v v') : readNodes v = readNodes v' :=
  h.elim (congrArg readNodes) fun h => readNodes_eq h.2

/-- The entries of the nodes stand for one another. -/
theorem nodeEntries_respelled (h : Naming.Respelled fields fields Same ms ms') :
    Forall₂ SameEntry (nodeEntries ms) (nodeEntries ms') := by
  have refl (entries : List (Value × Value)) : Forall₂ SameEntry entries entries :=
    List.forall₂_same.2 fun _ _ => ⟨rfl, .inl rfl⟩
  have found := value?_respelled h (f := "nodes") (by decide)
  have hone : camelCase "nodes" = "nodes" := by decide
  rw [Naming.value?_of_one hone, Naming.value?_of_one hone] at found
  rw [nodeEntries, nodeEntries]
  generalize Value.member? ms "nodes" = v at found
  generalize Value.member? ms' "nodes" = v' at found
  cases found with
  | none => exact .nil
  | some hv =>
      obtain rfl | ⟨-, entries, entries', rfl, rfl, hentries⟩ := hv
      · exact refl _
      · exact hentries

theorem ofMembers_respelled (h : Naming.Respelled fields fields Same ms ms') (spareId : String) :
    ofMembers spareId ms = ofMembers spareId ms' := by
  have optional {α : Type} (f : String) (hf : f ∈ fields) (hplain : f ≠ "nodes") (absent : α)
      (read : Value → Checked α) :
      Naming.either.optional ms f absent read = Naming.either.optional ms' f absent read :=
    Naming.optional_congr (value?_respelled h hf) fun _ _ hv => congrArg read (eq_of_same hv hplain)
  rw [ofMembers, ofMembers, optional "id" (by decide) (by decide),
    optional "name" (by decide) (by decide), optional "description" (by decide) (by decide),
    optional "version" (by decide) (by decide), optional "variables" (by decide) (by decide),
    Naming.required_congr (value?_respelled h (f := "start_node_id") (by decide))
      fun _ _ hv => congrArg _ (eq_of_same hv (by decide)),
    Naming.optional_congr (value?_respelled h (f := "nodes") (by decide))
      fun _ _ hv => readNodes_of_same hv]

/-- **The spelling of fields does not matter**: definitions that differ in it
give the same flow or the same problems, and take the spare id alike. -/
theorem load_respelled (h : Respelled d d') (spareId : String) :
    load spareId d = load spareId d' ∧ takesSpareId d = takesSpareId d' := by
  obtain rfl | ⟨ms, ms', rfl, rfl, hms⟩ := h
  · exact ⟨rfl, rfl⟩
  have contradiction : contradiction? (nodeEntries ms) = contradiction? (nodeEntries ms') :=
    contradiction?_eq (nodeEntries_respelled hms)
  constructor
  · have read : ofDocument spareId (.record ms) = ofDocument spareId (.record ms') := by
      simp only [ofDocument, Value.readRecord, contradiction, ofMembers_respelled hms]
    rw [load, load, read]
  · have found := value?_respelled hms (f := "id") (by decide)
    have hone : camelCase "id" = "id" := by decide
    rw [Naming.value?_of_one hone, Naming.value?_of_one hone] at found
    rw [takesSpareId, takesSpareId, contradiction]
    generalize Value.member? ms "id" = v at found
    generalize Value.member? ms' "id" = v' at found
    cases found with
    | none => rfl
    | some _ => rfl

/-- A definition with an option that leads to no text. -/
def misled (start target : String) : Value :=
  .object [(start, .text "hi"), ("nodes", .object [("hi", .object [("kind", .text "menu"),
    ("options", .list [.object [("key", .int 1), (target, .int 5)]])])])]

theorem respelled_misled :
    Respelled (misled "startNodeId" "target_node_id") (misled "start_node_id" "targetNodeId") := by
  have option : MenuOption.Respelled (.object [("key", .int 1), ("target_node_id", .int 5)])
      (.object [("key", .int 1), ("targetNodeId", .int 5)]) :=
    ⟨_, _, rfl, rfl, .cons (.same _) (.cons (.field (f := "target_node_id") (by decide)
      (by decide) (by decide) rfl) .nil), by decide, by decide⟩
  have options : Node.Same "options" (.list [.object [("key", .int 1), ("target_node_id", .int 5)]])
      (.list [.object [("key", .int 1), ("targetNodeId", .int 5)]]) :=
    .inr (.inl ⟨rfl, _, _, rfl, rfl, .cons (.inr option) .nil⟩)
  have node : Node.Respelled
      (.object [("kind", .text "menu"),
        ("options", .list [.object [("key", .int 1), ("target_node_id", .int 5)]])])
      (.object [("kind", .text "menu"),
        ("options", .list [.object [("key", .int 1), ("targetNodeId", .int 5)]])]) :=
    ⟨_, _, rfl, rfl, .cons (.same _) (.cons (.field (f := "options") (by decide)
      (by decide) (by decide) options) .nil), by decide, by decide⟩
  exact .inr ⟨_, _, rfl, rfl,
    .cons (.field (f := "start_node_id") (by decide) (by decide) (by decide)
      (.inl rfl))
      (.cons (.field (f := "nodes") (by decide) (by decide) (by decide)
        (.inr ⟨rfl, _, _, rfl, rfl, .cons ⟨rfl, .inr node⟩ .nil⟩)) .nil),
    by decide, by decide⟩

theorem load_misled :
    load "spare" (misled "startNodeId" "target_node_id") =
        load "spare" (misled "start_node_id" "targetNodeId") ∧
      takesSpareId (misled "startNodeId" "target_node_id") =
        takesSpareId (misled "start_node_id" "targetNodeId") :=
  load_respelled respelled_misled "spare"

/-- The path of a problem has the first spelling. -/
example : load "spare" (misled "startNodeId" "target_node_id") = .error (.invalid
    [⟨[.name "nodes", .name "hi", .name "menu", .name "options", .index 0, .name "targetNodeId"],
      .notText⟩]) := by decide +kernel

end Flow

end UssdFlows
