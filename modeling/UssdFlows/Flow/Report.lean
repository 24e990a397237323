import UssdFlows.Flow.Adjacency
import UssdFlows.Screen

/-!
# Reports on flows

Before a flow may serve callers it is examined.  A finding is an error, a
warning or a suggestion; only errors keep a flow from being published.

The errors are: a start node that does not exist, edges to nodes that do not
exist, menus in which two options share a key, and cycles.
-/

namespace UssdFlows

/-- How serious a finding is. -/
inductive Severity where
  | error
  | warning
  | suggestion
  deriving DecidableEq, Repr

/-- The word for a severity. -/
def Severity.text : Severity → String
  | error => "error"
  | warning => "warning"
  | suggestion => "suggestion"

/-- What an examination finds. -/
inductive Finding where
  | missingStart (start : String)
  | danglingEdge (source target : String)
  | emptyMenu (menu : String)
  | duplicateKeys (menu : String) (keys : List String)
  | cycle (node : String)
  | unreachable (node : String)
  | noEndReachable (start : String)
  | manyOptions (menu : String) (count : Nat)
  | noPattern (node : String)
  | longPrompt (node : String) (length : Nat) (limit : Int)
  deriving DecidableEq, Repr

namespace Finding

/-- The name of the kind of a finding. -/
def kind : Finding → String
  | missingStart .. => "missing_start_node"
  | danglingEdge .. => "dangling_reference"
  | emptyMenu .. => "empty_menu"
  | duplicateKeys .. => "duplicate_option_key"
  | cycle .. => "circular_reference"
  | unreachable .. => "unreachable_node"
  | noEndReachable .. => "no_terminal_path"
  | manyOptions .. => "too_many_options"
  | noPattern .. => "missing_validation"
  | longPrompt .. => "long_prompt"

/-- How serious a finding is. -/
def severity : Finding → Severity
  | missingStart .. | danglingEdge .. | duplicateKeys .. | cycle .. => .error
  | emptyMenu .. | unreachable .. | noEndReachable .. => .warning
  | manyOptions .. | noPattern .. | longPrompt .. => .suggestion

/-- The node that a finding is about. -/
def node : Finding → String
  | missingStart s => s
  | danglingEdge s _ => s
  | emptyMenu m => m
  | duplicateKeys m _ => m
  | cycle n => n
  | unreachable n => n
  | noEndReachable s => s
  | manyOptions m _ => m
  | noPattern n => n
  | longPrompt n .. => n

/-- The explanation of a finding. -/
def message : Finding → String
  | missingStart s => "Start node '" ++ s ++ "' does not exist"
  | danglingEdge s t => "Node '" ++ s ++ "' points to non-existent node '" ++ t ++ "'"
  | emptyMenu m => "Menu '" ++ m ++ "' has no options"
  | duplicateKeys m keys =>
    "Menu '" ++ m ++ "' has duplicate option keys: " ++ ", ".intercalate keys
  | cycle n => "Circular reference detected through node '" ++ n ++ "'"
  | unreachable n => "Node '" ++ n ++ "' is not reachable from the start node"
  | noEndReachable _ =>
    "No end node is reachable from the start node; sessions can only finish by expiring"
  | manyOptions m count =>
    "Menu '" ++ m ++ "' has " ++ Number.natText count ++
      " options. Consider grouping into sub-menus."
  | noPattern n => "Input node '" ++ n ++ "' has no validation pattern"
  | longPrompt n length limit =>
    "Prompt for '" ++ n ++ "' is " ++ Number.natText length ++
      " characters; USSD pages hold " ++ Number.intText limit

end Finding

/-- What a page and a menu should hold at most. -/
structure Limits where
  promptLength : Int
  menuOptions : Int
  deriving DecidableEq, Repr

/-- The limits of common handsets. -/
def Limits.standard : Limits := ⟨182, 9⟩

/-- The shape of a flow in numbers. -/
structure FlowStats where
  totalNodes : Nat
  totalEdges : Nat
  reachableNodes : Nat
  /-- The distance of the farthest node that can be reached. -/
  maxDepth : Nat
  /-- The mean number of options of a menu, to one decimal place. -/
  optionsPerMenu : Binary64
  deriving DecidableEq, Repr

/-- The result of an examination. -/
structure Report where
  flowId : String
  /-- All findings, in the order of the checks. -/
  findings : List Finding
  stats : FlowStats
  deriving DecidableEq, Repr

namespace Flow

/-! ## The checks -/

/-- The start node must exist. -/
def checkStart (f : Flow) : List Finding :=
  if f.hasNode f.startNode then [] else [.missingStart f.startNode]

/-- Every edge must lead to a node. -/
def checkEdges (f : Flow) : List Finding := f.dangling.map fun r => .danglingEdge r.1 r.2

/-- The keys that occur more than once, each once, in the order in which they
first occur. -/
def repeated (keys : List String) : List String := keys.eraseDups.filter fun k => 1 < keys.count k

/-- A menu has options, and no two of them have one key. -/
def checkMenu (n : Node) : List Finding :=
  match n.behaviour with
  | .menu [] => [.emptyMenu n.id]
  | .menu options =>
    match repeated (options.map MenuOption.key) with
    | [] => []
    | keys => [.duplicateKeys n.id keys]
  | _ => []

/-- The start node, if it exists. -/
def existingStart? (f : Flow) : Option String :=
  if f.hasNode f.startNode then some f.startNode else none

/-- No path leads back to a node on it. -/
def checkCycles (f : Flow) : List Finding := (f.cycleNodes f.existingStart?).map .cycle

/-- Every node can be reached from the start, and so can an end node. -/
def checkReachability (f : Flow) : List Finding :=
  let reached := f.reachable f.startNode
  let isEnd (id : String) : Bool := (f.node? id).any fun n => n.kind == .terminal
  ((f.nodes.keys.filter fun id => !reached.contains id).map .unreachable) ++
    if reached.any isEnd then [] else [.noEndReachable f.startNode]

/-- Hints on one node: too many options, no pattern, too long a prompt. -/
def checkUsability (limits : Limits) (bindings : Dict String) (n : Node) : List Finding :=
  let options := match n.behaviour with
    | .menu options =>
      if limits.menuOptions < options.length then [.manyOptions n.id options.length] else []
    | _ => []
  let pattern := match n.behaviour with
    | .input spec _ => if spec.pattern.isNone then [.noPattern n.id] else []
    | _ => []
  let length := (Screen.render (some n) bindings none).length
  options ++ pattern ++
    if limits.promptLength < length then [.longPrompt n.id length limits.promptLength] else []

/-- All findings on a flow, in the order of the checks. -/
def findings (f : Flow) (limits : Limits) : List Finding :=
  f.checkStart ++ f.checkEdges ++ f.nodes.items.flatMap checkMenu ++ f.checkCycles ++
    (if f.hasNode f.startNode then f.checkReachability else []) ++
    f.nodes.items.flatMap (checkUsability limits f.defaults)

/-- The number of options of every menu. -/
def menuSizes (f : Flow) : List Nat :=
  f.nodes.items.filterMap fun n => match n.behaviour with
    | .menu options => some options.length
    | _ => none

/-- The shape of a flow in numbers. -/
def stats (f : Flow) : FlowStats :=
  let levels := f.levels f.startNode
  let sizes := f.menuSizes
  { totalNodes := f.size
    totalEdges := f.references.length
    reachableNodes := levels.length
    maxDepth := (levels.map Prod.snd).foldl max 0
    optionsPerMenu :=
      if sizes.isEmpty then .zero
      else (Binary64.ofRatio false (sizes.foldl Nat.add 0) sizes.length).roundPlaces 1 }

/-- Examines a flow. -/
def report (f : Flow) (limits : Limits) : Report := ⟨f.id, f.findings limits, f.stats⟩

end Flow

namespace Report

/-- The findings of one severity. -/
def ofSeverity (r : Report) (s : Severity) : List Finding :=
  r.findings.filter fun i => i.severity == s

/-- The findings that keep a flow from being published. -/
def errors (r : Report) : List Finding := r.ofSeverity .error

/-- Whether nothing keeps the flow from being published. -/
def isValid (r : Report) : Bool := r.errors.isEmpty

end Report

/-! ## Writing -/

/-- A finding as a document. -/
def Finding.document (i : Finding) : Value :=
  .object [("kind", .text i.kind), ("node_id", .text i.node), ("message", .text i.message),
    ("severity", .text i.severity.text)]

/-- The shape of a flow as a document. -/
def FlowStats.document (s : FlowStats) : Value :=
  .object [("total_nodes", .int s.totalNodes), ("total_edges", .int s.totalEdges),
    ("reachable_nodes", .int s.reachableNodes), ("max_depth", .int s.maxDepth),
    ("avg_options_per_menu", .real s.optionsPerMenu)]

/-- The members of a report as a document. -/
def Report.members (r : Report) : List (String × Value) :=
  let listed (s : Severity) : Value := .list ((r.ofSeverity s).map Finding.document)
  [("valid", .bool r.isValid), ("flow_id", .text r.flowId), ("errors", listed .error),
    ("warnings", listed .warning), ("suggestions", listed .suggestion),
    ("stats", r.stats.document)]

/-- How often each kind of finding occurs, in the order in which the kinds
first occur. -/
def Report.counts (r : Report) : List (String × Nat) :=
  let kinds := r.findings.map Finding.kind
  kinds.eraseDups.map fun k => (k, kinds.count k)

end UssdFlows
