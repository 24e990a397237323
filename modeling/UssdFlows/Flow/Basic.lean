import UssdFlows.Data.KeyedList
import UssdFlows.Document.Value
import UssdFlows.Pattern.Matcher

/-!
# Flows

A flow is a graph of nodes that a caller walks through one input at a time.
What a node does with an input is its behaviour: a menu offers options, an
input node captures free text, a conditional node branches on a variable,
payment and api nodes call an external service, and an end node completes the
session.

The rules that a node must obey on its own stand in the types: an option key
is stripped and not empty, a pattern can be read, an amount is not negative, a
version is at least one, and no two nodes of a flow have the same id.
-/

namespace UssdFlows

/-- The kinds of node. -/
inductive NodeKind where
  | menu
  | input
  | conditional
  | payment
  | api
  | terminal
  deriving DecidableEq, Repr

/-- The word for a kind of node. -/
def NodeKind.text : NodeKind → String
  | menu => "menu"
  | input => "input"
  | conditional => "conditional"
  | payment => "payment"
  | api => "api"
  | terminal => "end"

/-- The kinds in the order of their declaration. -/
def NodeKind.all : List NodeKind := [menu, input, conditional, payment, api, terminal]

/-- The kind that a word names. -/
def NodeKind.ofText? (s : String) : Option NodeKind := NodeKind.all.find? fun k => k.text == s

/-- The comparisons of a conditional node. -/
inductive Operator where
  | equals
  | notEquals
  | greaterThan
  | lessThan
  | contains
  | startsWith
  deriving DecidableEq, Repr

/-- The word for a comparison. -/
def Operator.text : Operator → String
  | equals => "equals"
  | notEquals => "not_equals"
  | greaterThan => "greater_than"
  | lessThan => "less_than"
  | contains => "contains"
  | startsWith => "starts_with"

/-- All comparisons. -/
def Operator.all : List Operator :=
  [equals, notEquals, greaterThan, lessThan, contains, startsWith]

/-- The comparison that a word names. -/
def Operator.ofText? (s : String) : Option Operator := Operator.all.find? fun o => o.text == s

/-- The methods of a call to a service. -/
inductive Method where
  | get
  | post
  | put
  | patch
  deriving DecidableEq, Repr

/-- The word for a method. -/
def Method.text : Method → String
  | get => "GET"
  | post => "POST"
  | put => "PUT"
  | patch => "PATCH"

/-- The method that a word in capitals names. -/
def Method.ofText? (s : String) : Option Method :=
  [get, post, put, patch].find? fun m => m.text == s

/-- A choice of a menu: the key that the caller types, the label, and the node
it leads to; without one the choice completes the session. -/
structure MenuOption where
  key : String
  text : String
  target : Option String
  /-- A key has no blanks around it and is not empty. -/
  key_trimmed : Text.isTrimmed key = true
  deriving DecidableEq, Repr

/-- What an input node captures, and which inputs it accepts. -/
structure InputSpec where
  /-- The variable that receives the input. -/
  variableName : String
  /-- Whether a blank input is rejected. -/
  isRequired : Bool
  /-- The pattern that the whole input must match. -/
  pattern : Option Pattern
  deriving DecidableEq, Repr

/-- The specification of an input node that gives none. -/
def InputSpec.standard : InputSpec := ⟨"input", true, none⟩

/-- The comparison of a session variable with a fixed value. -/
structure Condition where
  variableName : String
  operator : Operator
  value : String
  deriving DecidableEq, Repr

/-- An amount to be paid: a number that is not negative. -/
structure Amount where
  value : Binary64
  nonneg : (value.less Binary64.zero || value == .notANumber) = false
  deriving DecidableEq, Repr

/-- Where an action leads when it succeeds and when it fails. -/
structure Branches where
  success : Option String
  failure : Option String
  deriving DecidableEq, Repr

/-- What a node does with an input. -/
inductive Behaviour where
  | menu (options : List MenuOption)
  | input (spec : InputSpec) (next : Option String)
  /-- A branch that leads nowhere falls back to `next`. -/
  | conditional (condition : Condition) (branches : Branches) (next : Option String)
  | payment (branches : Branches) (amount : Amount) (currency : String)
  | api (branches : Branches) (url : Option String) (method : Method)
  | terminal
  deriving DecidableEq, Repr

/-- A node of a flow. -/
structure Node where
  id : String
  /-- The prompt shown while the node awaits input. -/
  text : String
  behaviour : Behaviour
  deriving DecidableEq, Repr

namespace Node

/-- The kind of a node. -/
def kind (n : Node) : NodeKind :=
  match n.behaviour with
  | .menu .. => .menu
  | .input .. => .input
  | .conditional .. => .conditional
  | .payment .. => .payment
  | .api .. => .api
  | .terminal => .terminal

/-- The options of a menu; other nodes have none. -/
def options (n : Node) : List MenuOption :=
  match n.behaviour with
  | .menu options => options
  | _ => []

/-- Where a node may lead, in the order of its declaration; `none` completes
the session. -/
def edges (n : Node) : List (Option String) :=
  match n.behaviour with
  | .menu options => options.map MenuOption.target
  | .input _ next => [next]
  | .conditional _ b next => [b.success, b.failure, next]
  | .payment b .. => [b.success, b.failure]
  | .api b .. => [b.success, b.failure]
  | .terminal => []

/-- The nodes that a node refers to. -/
def targets (n : Node) : List String := n.edges.filterMap fun t => t

/-- The first option with a key. -/
def option? (n : Node) (key : String) : Option MenuOption := n.options.find? fun o => o.key == key

/-- Whether the node is resolved as soon as a session reaches it. -/
def isTransient (n : Node) : Bool := n.kind == .conditional

/-- Whether the node calls an external service. -/
def isAction (n : Node) : Bool := n.kind == .payment || n.kind == .api

/-- A node refers to another one exactly if one of its edges leads there. -/
theorem mem_targets_iff {n : Node} {t : String} : t ∈ n.targets ↔ some t ∈ n.edges := by
  simp [targets, List.mem_filterMap]

end Node

/-- A flow: its nodes, the node a session starts at, and the variables that a
new session begins with. -/
structure Flow where
  id : String
  name : Option String
  description : Option String
  version : Int
  startNode : String
  nodes : KeyedList Node.id
  defaults : Dict String
  one_le_version : 1 ≤ version
  deriving DecidableEq, Repr

namespace Flow

/-- Versions start at one. -/
theorem one_le_firstVersion : (1 : Int) ≤ 1 := Int.le_refl 1

/-- The version of a flow that does not tell its own. -/
def firstVersion : { v : Int // 1 ≤ v } := ⟨1, by decide⟩

/-- The node with an id. -/
def node? (f : Flow) (id : String) : Option Node := f.nodes.find? id

/-- Whether a flow has a node with an id. -/
def hasNode (f : Flow) (id : String) : Bool := f.nodes.contains id

/-- The node a session starts at, if it exists. -/
def start? (f : Flow) : Option Node := f.node? f.startNode

/-- The number of nodes. -/
def size (f : Flow) : Nat := f.nodes.size

/-- The same flow under another version. -/
def withVersion (f : Flow) (v : Int) (h : 1 ≤ v) : Flow :=
  { f with version := v, one_le_version := h }

theorem lt_add_one_version (f : Flow) : 1 ≤ f.version + 1 := by
  have := f.one_le_version
  omega

/-- The flow with a node added, or put in the place of the node with its id;
the version grows by one. -/
def withNode (f : Flow) (n : Node) : Flow :=
  { f.withVersion (f.version + 1) f.lt_add_one_version with nodes := f.nodes.put n }

/-- The flow without a node, if it has one with that id; the version grows by
one.  Edges that lead to the node stay. -/
def withoutNode? (f : Flow) (id : String) : Option Flow :=
  if f.hasNode id then
    some { f.withVersion (f.version + 1) f.lt_add_one_version with nodes := f.nodes.erase id }
  else none

/-- A list of nodes under names, as a flow that starts at the node `id`.  A name
that is not the id of its node is refused; the first such pair is returned. -/
def ofNodes (id : String) (entries : List (String × Node)) : Except (String × Node) Flow :=
  match entries.find? fun e => e.1 != e.2.id with
  | some bad => .error bad
  | none => .ok
    { id, name := none, description := none, version := firstVersion.val, startNode := id,
      nodes := .ofList (entries.map Prod.snd), defaults := .empty
      one_le_version := firstVersion.property }

/-- A node that was added is found under its id. -/
theorem node?_withNode (f : Flow) (n : Node) (id : String) :
    (f.withNode n).node? id = if n.id = id then some n else f.node? id :=
  KeyedList.find?_put f.nodes n id

end Flow

end UssdFlows
