import UssdFlows.Flow.Loading

/-!
# Flows reloaded from their definitions

`Flow.definition` writes a flow, and `Flow.load` reads one.  Between the two
stand optional fields with values of their own, two spellings of most names,
and everything that reading brings into one form: stripped keys, empty
patterns, methods in capitals, variables shown as text.  This file shows that a
definition is a form that reading leaves as it is: a flow whose amounts are
finite is loaded from its own definition (`Flow.load_definition`), whatever
flow that is and whichever way it came about.

An amount without bound is the one value that has no form in a definition; it
is written as null, which no amount is read from.

The proof goes up the layers of the format.  A field is found under the one-word
spelling that the writer uses (`Naming.optional_object`), and one lemma for
each kind of record says that it is read back from its document.
-/

namespace UssdFlows

/-! ## Readings that succeed -/

namespace Checked

variable {α β : Type}

/-- The value, or the problems if there are any. -/
def ofProblems (problems : List Problem) (a : α) : Checked α :=
  if problems = [] then ok a else bad problems

theorem map_ofProblems (f : α → β) (ps : List Problem) (a : α) :
    f <$> ofProblems ps a = ofProblems ps (f a) := by
  cases ps <;> rfl

/-- The problems of both sides are joined. -/
theorem seq_ofProblems (f : α → β) (ps qs : List Problem) (a : α) :
    (ofProblems ps f <*> ofProblems qs a) = ofProblems (ps ++ qs) (f a) := by
  cases ps <;> cases qs <;> simp [ofProblems, Seq.seq, seq]

theorem inside_ofProblems (part : PathPart) (ps : List Problem) (a : α) :
    inside part (ofProblems ps a) =
      ofProblems (ps.map fun p => { p with path := part :: p.path }) a := by
  cases ps <;> rfl

/-- Items that are each read as the entry they were written for are read as the
list of these. -/
theorem items_map {read : Value → Checked α} {write : α → Value} (xs : List α)
    (back : ∀ x ∈ xs, read (write x) = ok x) (i : Nat) : items read i (xs.map write) = ok xs := by
  induction xs generalizing i with
  | nil => rfl
  | cons x rest ih =>
    rw [List.map_cons, items, back x List.mem_cons_self,
      ih (fun y hy => back y (List.mem_cons_of_mem x hy))]
    rfl

end Checked

/-! ## Members of a written record -/

/-- A member of a record whose names are texts is looked up by its name. -/
theorem Value.member?_object (members : List (String × Value)) (name : String) :
    Value.member? (members.map fun m => (Value.text m.1, m.2)) name = members.lookup name := by
  induction members with
  | nil => rfl
  | cons m rest ih =>
    obtain ⟨k, w⟩ := m
    rw [Value.member?] at ih ⊢
    rw [List.map_cons, List.find?_cons, List.lookup_cons, Value.sameName_text, Bool.beq_comm]
    by_cases h : (name == k) = true
    · simp [h]
    · simpa [h] using ih

namespace Naming

variable {α : Type} {members : List (String × Value)} {word : String} {v : Value}
  {read : Value → Checked α}

/-- A field is found under its one-word spelling. -/
theorem value?_object (field : String)
    (found : members.lookup word = some v) (spelled : camelCase field = word) :
    either.value? (members.map fun m => (Value.text m.1, m.2)) field = some v := by
  simp [value?, either, spelled, Value.member?_object, found]

theorem required_object (field : String)
    (found : members.lookup word = some v) (spelled : camelCase field = word) :
    either.required (members.map fun m => (Value.text m.1, m.2)) field read =
      .inside (.name word) (read v) := by
  rw [required, value?_object field found spelled]
  exact congrArg (fun s => Checked.inside (.name s) (read v)) spelled

theorem optional_object (field : String)
    (found : members.lookup word = some v) (spelled : camelCase field = word) (absent : α) :
    either.optional (members.map fun m => (Value.text m.1, m.2)) field absent read =
      .inside (.name word) (read v) := by
  rw [optional, value?_object field found spelled]
  exact congrArg (fun s => Checked.inside (.name s) (read v)) spelled

end Naming

/-! ## Scalars -/

/-- A text or null is read back as it was written. -/
theorem Value.readNullable_ofOption (t : Option String) :
    Value.readNullable Value.readText (.ofOption t) = .ok t := by
  cases t <;> rfl

theorem Value.readTarget_ofOption (t : Option String) : Value.readTarget (.ofOption t) = .ok t :=
  readNullable_ofOption t

/-- A word of a closed list is read back if it names its own entry. -/
theorem Value.readMember_text {α : Type} {ofText? : String → Option α} {s : String} {a : α}
    (h : ofText? s = some a) : Value.readMember ofText? (.text s) = .ok a := by
  rw [Value.readMember, h]

theorem NodeKind.ofText?_text (k : NodeKind) : NodeKind.ofText? k.text = some k := by
  cases k <;> rfl

theorem Operator.ofText?_text (o : Operator) : Operator.ofText? o.text = some o := by
  cases o <;> rfl

/-- The word for a method is already stripped and in capitals. -/
theorem Method.ofValue_text (m : Method) : Method.ofValue (.text m.text) = .ok m := by
  cases m <;> decide +kernel

/-- An amount is read back if it is finite; otherwise what was written is no
amount at all. -/
theorem Amount.ofValue_document (a : Amount) :
    Amount.ofValue a.document = if a.value.isFinite then .ok a else .fail .notReal := by
  rw [Amount.document]
  split
  · rw [Amount.ofValue, Value.readReal, Checked.andThen, dif_pos a.nonneg]
  · rfl

/-! ## Records -/

/-- A stripped key is not stripped further. -/
theorem MenuOption.readKey_text {s : String} (h : Text.isTrimmed s = true) :
    MenuOption.readKey (.text s) = .ok ⟨s, h⟩ := by
  have shown : Value.readShown (.text s) = .ok s := rfl
  simp only [readKey, shown, Checked.andThen, Text.strip_of_isTrimmed h, dif_pos h]
  rfl

theorem MenuOption.ofValue_object {members : List (String × Value)} (o : MenuOption)
    (key : members.lookup "key" = some (.text o.key))
    (text : members.lookup "text" = some (.text o.text))
    (target : members.lookup "targetNodeId" = some (.ofOption o.target)) :
    MenuOption.ofValue (.object members) = .ok o := by
  rw [ofValue, Value.object, Value.readRecord, Naming.required_object "key" key rfl,
    Naming.optional_object "text" text rfl, Naming.optional_object "target_node_id" target rfl,
    readKey_text o.key_trimmed, Value.readNullable_ofOption]
  rfl

theorem MenuOption.ofValue_document (o : MenuOption) : MenuOption.ofValue o.document = .ok o :=
  ofValue_object o rfl rfl rfl

/-- A pattern is not empty, so that its text is not taken for the absence of one. -/
theorem InputSpec.readPattern_ofOption (p : Option Pattern) :
    InputSpec.readPattern (.ofOption (p.map Pattern.source)) = .ok p := by
  cases p with
  | none => rfl
  | some p =>
    have read : InputSpec.readPattern (.text p.source) = .ok (some p) := by
      have nonempty : p.source ≠ "" := p.property.1
      simp only [readPattern, Value.readNullable, Value.readText, Functor.map, Checked.map,
        Checked.andThen, if_neg nonempty, Libraries.pattern_standard, Pattern.ofText_source]
    exact read

theorem InputSpec.ofValue_object {members : List (String × Value)} (s : InputSpec)
    (name : members.lookup "variableName" = some (.text s.variableName))
    (required : members.lookup "required" = some (.bool s.isRequired))
    (pattern : members.lookup "pattern" = some (.ofOption (s.pattern.map Pattern.source))) :
    InputSpec.ofValue (.object members) = .ok s := by
  rw [ofValue, Value.object, Value.readRecord, Naming.optional_object "variable_name" name rfl,
    Naming.optional_object "required" required rfl, Naming.optional_object "pattern" pattern rfl, readPattern_ofOption]
  rfl

theorem InputSpec.ofValue_document (s : InputSpec) : InputSpec.ofValue s.document = .ok s :=
  ofValue_object s rfl rfl rfl

theorem Condition.ofValue_object {members : List (String × Value)} (c : Condition)
    (name : members.lookup "variable" = some (.text c.variableName))
    (operator : members.lookup "operator" = some (.text c.operator.text))
    (value : members.lookup "value" = some (.text c.value)) :
    Condition.ofValue (.object members) = .ok c := by
  rw [ofValue, Value.object, Value.readRecord, Naming.required_object "variable" name rfl,
    Naming.optional_object "operator" operator rfl, Naming.optional_object "value" value rfl,
    Value.readMember_text c.operator.ofText?_text]
  rfl

theorem Condition.ofValue_document (c : Condition) : Condition.ofValue c.document = .ok c :=
  ofValue_object c rfl rfl rfl

/-! ## Nodes -/

/-- The amount that a node asks for. -/
def Behaviour.amount? : Behaviour → Option Amount
  | payment _ amount _ => some amount
  | _ => none

/-- Whether the amount of a node, if it has one, is finite. -/
def Behaviour.hasFiniteAmount (b : Behaviour) : Bool := b.amount?.all fun a => a.value.isFinite

/-- What stands in the way of reading a behaviour back. -/
def Behaviour.obstacles (b : Behaviour) : List Problem :=
  if b.hasFiniteAmount then [] else [⟨[.name "amount"], .notReal⟩]

/-- The kind of a node with a behaviour. -/
def Behaviour.kind (b : Behaviour) : NodeKind := (Node.mk "" "" b).kind

namespace Behaviour

variable {members : List (String × Value)}

theorem target_object {word : String} {t : Option String} (field : String)
    (found : members.lookup word = some (.ofOption t)) (spelled : camelCase field = word) :
    ofMembers.target (members.map fun m => (Value.text m.1, m.2)) field = .ok t := by
  rw [ofMembers.target, Naming.optional_object field found spelled, Value.readTarget_ofOption]
  rfl

/-- The fields of a behaviour are read back from any record that has them.  Only
an amount that is not finite stands in the way. -/
theorem ofMembers_object (b : Behaviour)
    (has : ∀ m ∈ b.members, members.lookup m.1 = some m.2) :
    ofMembers (members.map fun m => (Value.text m.1, m.2)) b.kind =
      .ofProblems b.obstacles b := by
  cases b with
  | menu options =>
    simp only [Behaviour.members, List.forall_mem_cons] at has
    obtain ⟨options_mem, -⟩ := has
    show menu <$> Naming.either.optional _ "options" [] Value.readOptions = Checked.ok (menu options)
    rw [Naming.optional_object "options" options_mem rfl, Value.readOptions,
      Checked.items_map options fun o _ => o.ofValue_document]
    rfl
  | input spec next =>
    simp only [Behaviour.members, List.forall_mem_cons] at has
    obtain ⟨spec_mem, next_mem, -⟩ := has
    show input <$> Naming.either.optional _ "input_spec" .standard InputSpec.ofValue
      <*> ofMembers.target _ "next_node_id" = Checked.ok (input spec next)
    rw [Naming.optional_object "input_spec" spec_mem rfl, InputSpec.ofValue_document,
      target_object "next_node_id" next_mem rfl]
    rfl
  | conditional c b next =>
    simp only [Behaviour.members, Branches.members, List.cons_append, List.nil_append,
      List.forall_mem_cons] at has
    obtain ⟨condition_mem, success_mem, failure_mem, next_mem, -⟩ := has
    rw [show (conditional c b next).kind = .conditional from rfl, ofMembers,
      Naming.required_object "condition" condition_mem rfl, Condition.ofValue_document,
      target_object "success_node_id" success_mem rfl,
      target_object "failure_node_id" failure_mem rfl, target_object "next_node_id" next_mem rfl]
    rfl
  | payment b amount currency =>
    simp only [Behaviour.members, Branches.members, List.cons_append, List.nil_append,
      List.forall_mem_cons] at has
    obtain ⟨success_mem, failure_mem, amount_mem, currency_mem, -⟩ := has
    rw [show (payment b amount currency).kind = .payment from rfl, ofMembers,
      target_object "success_node_id" success_mem rfl,
      target_object "failure_node_id" failure_mem rfl,
      Naming.optional_object "amount" amount_mem rfl, Amount.ofValue_document,
      Naming.optional_object "currency" currency_mem rfl]
    cases finite : amount.value.isFinite <;>
      simp [obstacles, hasFiniteAmount, amount?, finite] <;> rfl
  | api b url method =>
    simp only [Behaviour.members, Branches.members, List.cons_append, List.nil_append,
      List.forall_mem_cons] at has
    obtain ⟨success_mem, failure_mem, url_mem, method_mem, -⟩ := has
    rw [show (api b url method).kind = .api from rfl, ofMembers,
      target_object "success_node_id" success_mem rfl,
      target_object "failure_node_id" failure_mem rfl,
      Naming.optional_object "url" url_mem rfl, Value.readTarget_ofOption,
      Naming.optional_object "method" method_mem rfl, Method.ofValue_text]
    rfl
  | terminal => rfl

end Behaviour

namespace Node

/-- The members that a node is written with. -/
def members (n : Node) : List (String × Value) :=
  ("text", .text n.text) :: ("kind", .text n.kind.text) :: n.behaviour.members

theorem document_eq (n : Node) : n.document = .object n.members := rfl

/-- No two members of a written node have the same name. -/
theorem lookup_members (n : Node) : ∀ m ∈ n.members, n.members.lookup m.1 = some m.2 := by
  obtain ⟨id, text, b⟩ := n
  cases b <;>
    simp [members, Behaviour.members, Branches.members, List.lookup_cons]

/-- A written node does not tell its id. -/
theorem get?_id_document (n : Node) : n.document.get? "id" = none := by
  rw [document_eq, Value.object, Value.get?, Value.member?_object]
  obtain ⟨id, text, b⟩ := n
  cases b <;> rfl

/-- What stands in the way of reading a node back. -/
def obstacles (n : Node) : List Problem :=
  n.behaviour.obstacles.map fun p => { p with path := .name n.kind.text :: p.path }

/-- A node is read back under its id. -/
theorem ofMembers_document (n : Node) :
    ofMembers (n.members.map fun m => (Value.text m.1, m.2)) (some (.text n.id)) =
      .ofProblems n.obstacles n := by
  have kind_mem : n.members.lookup "kind" = some (.text n.kind.text) :=
    n.lookup_members _ (.tail _ (.head _))
  have text_mem : n.members.lookup "text" = some (.text n.text) := n.lookup_members _ (.head _)
  have behaviour : Behaviour.ofMembers (n.members.map fun m => (Value.text m.1, m.2)) n.kind =
      .ofProblems n.behaviour.obstacles n.behaviour :=
    n.behaviour.ofMembers_object fun m h => n.lookup_members m (.tail _ (.tail _ h))
  simp only [ofMembers, Value.member?_object, kind_mem, NodeKind.ofText?_text, behaviour,
    Naming.optional_object "text" text_mem rfl, obstacles, ← Checked.inside_ofProblems]
  exact congrArg _ (Checked.seq_ofProblems (Node.mk n.id n.text) [] _ _)

end Node

namespace Flow

/-- Whether every amount that a node of the flow asks for is finite. -/
def HasFiniteAmounts (f : Flow) : Prop := ∀ n ∈ f.nodes.items, n.behaviour.hasFiniteAmount = true

instance (f : Flow) : Decidable f.HasFiniteAmounts := inferInstanceAs (Decidable (∀ n ∈ _, _))

/-- What stands in the way of reading a flow back, node by node. -/
def obstacles (f : Flow) : List Problem :=
  f.nodes.items.flatMap fun n =>
    n.obstacles.map fun p => { p with path := .name "nodes" :: .name n.id :: p.path }

/-- Nothing but an amount that is not finite stands in the way. -/
theorem obstacles_eq_nil_iff {f : Flow} : f.obstacles = [] ↔ f.HasFiniteAmounts := by
  simp [obstacles, Node.obstacles, Behaviour.obstacles, HasFiniteAmounts]

/-- A node is read back from its entry. -/
theorem readEntry_document (n : Node) :
    readEntry (.text n.id) n.document =
      .ofProblems (n.obstacles.map fun p => { p with path := .name n.id :: p.path }) n := by
  rw [readEntry, Node.document_eq, Value.object, Value.readRecord, Node.ofMembers_document,
    ← Checked.inside_ofProblems]
  exact congrArg _ (Checked.seq_ofProblems (fun n => n) [] _ _)

/-- Entries are read back in their order. -/
theorem readEntries_document (ns : List Node) :
    (ns.map fun n => (Value.text n.id, n.document)).foldr
        (fun e rest => List.cons <$> readEntry e.1 e.2 <*> rest) (Checked.ok []) =
      .ofProblems (ns.flatMap fun n =>
        n.obstacles.map fun p => { p with path := .name n.id :: p.path }) ns := by
  induction ns with
  | nil => rfl
  | cons n rest ih =>
    rw [List.map_cons, List.foldr_cons, ih, readEntry_document, Checked.map_ofProblems,
      Checked.seq_ofProblems, List.flatMap_cons]

/-- The members that a flow is written with. -/
def members (f : Flow) : List (String × Value) :=
  [("id", .text f.id), ("name", .ofOption f.name),
    ("description", .ofOption f.description), ("version", .int f.version),
    ("startNodeId", .text f.startNode),
    ("nodes", .object (f.nodes.items.map fun n => (n.id, n.document))),
    ("variables", f.defaults.textRecord)]

theorem definition_eq (f : Flow) : f.definition = .object f.members := rfl

theorem contradiction?_document (ns : List Node) :
    contradiction? (ns.map fun n => (Value.text n.id, n.document)) = none := by
  simp [contradiction?, Node.get?_id_document]

theorem readNodes_document (f : Flow) :
    Checked.inside (.name "nodes")
        (readNodes (.object (f.nodes.items.map fun n => (n.id, n.document)))) =
      .ofProblems f.obstacles f.nodes := by
  have entries : f.nodes.items.map ((fun m : String × Value => (Value.text m.1, m.2)) ∘
      fun n => (n.id, n.document)) = f.nodes.items.map fun n => (Value.text n.id, n.document) := rfl
  simp only [Value.object, List.map_map, readNodes, entries]
  rw [readEntries_document, Checked.map_ofProblems, KeyedList.ofList_items,
    Checked.inside_ofProblems, List.map_flatMap]
  simp only [List.map_map]
  rfl

theorem readVariables_texts (es : List (String × String)) :
    (es.map fun e => (Value.text e.1, Value.text e.2)).foldr
      (fun e rest => (readVariable e.1 e.2).andThen fun x => List.cons x <$> rest) (.ok []) =
    .ok es := by
  induction es with
  | nil => rfl
  | cons e es ih =>
    rw [List.map_cons, List.foldr_cons, ih]
    rfl

/-- Variables are read back in their order. -/
theorem readVariables_textRecord (d : Dict String) : readVariables d.textRecord = .ok d := by
  show KeyedList.ofList <$> List.foldr _ _ (List.map _ (List.map _ _)) = _
  rw [List.map_map]
  exact (congrArg (KeyedList.ofList <$> ·) (readVariables_texts d.items)).trans
    (congrArg Checked.ok d.ofList_items)

/-- The fields of a flow are read back. -/
theorem ofMembers_members (spareId : String) (f : Flow) :
    ofMembers spareId (f.members.map fun m => (Value.text m.1, m.2)) = .ofProblems f.obstacles f := by
  have version : Checked.atLeast 1 (Value.int f.version).readWhole =
      .ok ⟨f.version, f.one_le_version⟩ := dif_pos f.one_le_version
  have id_mem : f.members.lookup "id" = some (.text f.id) := rfl
  have name_mem : f.members.lookup "name" = some (.ofOption f.name) := rfl
  have description_mem : f.members.lookup "description" = some (.ofOption f.description) := rfl
  have version_mem : f.members.lookup "version" = some (.int f.version) := rfl
  have start_mem : f.members.lookup "startNodeId" = some (.text f.startNode) := rfl
  have nodes_mem : f.members.lookup "nodes" =
    some (.object (f.nodes.items.map fun n => (n.id, n.document))) := rfl
  have variables_mem : f.members.lookup "variables" = some f.defaults.textRecord := rfl
  rw [ofMembers, Naming.optional_object "id" id_mem rfl, Naming.optional_object "name" name_mem rfl,
    Naming.optional_object "description" description_mem rfl,
    Naming.optional_object "version" version_mem rfl, version,
    Naming.required_object "start_node_id" start_mem rfl,
    Naming.optional_object "nodes" nodes_mem rfl, readNodes_document,
    Naming.optional_object "variables" variables_mem rfl, readVariables_textRecord,
    Value.readNullable_ofOption, Value.readNullable_ofOption]
  cases f.obstacles <;> rfl

/-- **What is loaded from a definition.** A flow whose amounts are finite is
loaded from its own definition as it was; otherwise the definition is refused,
with one problem for each amount that is not. -/
theorem load_definition (spareId : String) (f : Flow) :
    load spareId f.definition =
      if f.HasFiniteAmounts then .ok f else .error (.invalid f.obstacles) := by
  have entries : nodeEntries (f.members.map fun m => (Value.text m.1, m.2)) =
      f.nodes.items.map fun n => (Value.text n.id, n.document) := by
    have nodes_mem : f.members.lookup "nodes" =
      some (.object (f.nodes.items.map fun n => (n.id, n.document))) := rfl
    simp only [nodeEntries, Value.member?_object, nodes_mem, Value.object, List.map_map]
    rfl
  have read : ofDocument spareId f.definition = .ofProblems f.obstacles f := by
    rw [definition_eq, ofDocument, Value.object, Value.readRecord, entries,
      contradiction?_document, ofMembers_members]
  rw [load, read, Checked.ofProblems]
  by_cases finite : f.HasFiniteAmounts
  · rw [if_pos (obstacles_eq_nil_iff.2 finite), if_pos finite]
  · rw [if_neg (mt obstacles_eq_nil_iff.1 finite), if_neg finite]

/-- A definition is a fixed form: whatever flow it was written for, by loading
and by editing, it is read as that flow, node by node under the names they
stand under, and written again as it was. -/
theorem definition_round_trip {f : Flow} (finite : f.HasFiniteAmounts) (spareId : String) :
    load spareId f.definition = .ok f ∧
      (load spareId f.definition).map definition = .ok f.definition ∧
      ∀ n ∈ f.nodes.items, n.document.get? "id" = none := by
  have loaded : load spareId f.definition = .ok f := by rw [load_definition, if_pos finite]
  refine ⟨loaded, ?_, fun n _ => n.get?_id_document⟩
  rw [loaded]
  rfl

/-- A document in which much is left to the reader: numbers as names and keys,
blanks around them, both spellings, an empty pattern, a method in small
letters, an amount given as text. -/
def looseDocument : Value :=
  .object [("start_node_id", .text "m"), ("version", .text " 7 "),
    ("variables", .record [(.int 3, .real (.ofDecimal false 25 (-1))), (.text "x", .null)]),
    ("nodes", .object [
      ("m", .object [("kind", .text "menu"), ("options", .list [
        .object [("key", .int 1), ("text", .text "Pay"), ("target_node_id", .text "p")],
        .object [("key", .text " 2 "), ("targetNodeId", .text "i")]])]),
      ("i", .object [("id", .text "i"), ("kind", .text "input"), ("input_spec",
        .object [("pattern", .text ""), ("required", .text "no")])]),
      ("c", .object [("kind", .text "conditional"), ("condition",
        .object [("variable", .text "x"), ("value", .bool true)])]),
      ("p", .object [("kind", .text "payment"), ("amount", .text "12.5")]),
      ("a", .object [("kind", .text "api"), ("method", .text " post ")])])]

/-- The loose document is loaded, and the flow it gives is read back after an
edit that adds a node and one that drops one. -/
theorem definition_round_trip_loose :
    ∃ f g, load "spare" looseDocument = .ok f ∧
      (f.withNode ⟨"e", "Bye", .terminal⟩).withoutNode? "c" = some g ∧ g.size = 5 ∧
      g.HasFiniteAmounts ∧ load "other" g.definition = .ok g ∧
      (load "other" g.definition).map definition = .ok g.definition ∧
      ∀ n ∈ g.nodes.items, n.document.get? "id" = none := by
  have edited : ((load "spare" looseDocument).toOption.bind fun f =>
      (f.withNode ⟨"e", "Bye", .terminal⟩).withoutNode? "c").any
        (fun g => g.size == 5 && decide g.HasFiniteAmounts) = true := by decide +kernel
  simp only [Option.any_eq_true, Option.bind_eq_some_iff, Bool.and_eq_true, beq_iff_eq,
    decide_eq_true_eq] at edited
  obtain ⟨g, ⟨f, loaded, edited⟩, size, finite⟩ := edited
  have loaded : load "spare" looseDocument = .ok f := by
    cases h : load "spare" looseDocument <;> simp_all [Except.toOption]
  exact ⟨f, g, loaded, edited, size, finite, definition_round_trip finite "other"⟩

end Flow

end UssdFlows
