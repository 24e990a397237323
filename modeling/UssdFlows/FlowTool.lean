import UssdFlows.Flow.Loading
import UssdFlows.Flow.Report
import UssdFlows.Text.LetterCase

/-!
# The flow tool

A command for the terminal that lists the flow files of a directory, validates
flow files, and shows the nodes and the shape of a flow.

A run of the tool is a function of the files it can see: it prints lines and
may end with an exit code.  A fault of a definition is printed; any other cause
for which a file cannot be loaded ends the run (`LoadError.isReported`).
-/

namespace UssdFlows

variable [Libraries]

/-- What a run of the tool comes to. -/
structure ToolRun where
  /-- The lines that are printed. -/
  lines : List String
  /-- The exit code, if the run ends with one. -/
  exit : Option Nat
  deriving DecidableEq, Repr

/-- Everything that is printed, as one text. -/
def ToolRun.output (r : ToolRun) : String := String.join (r.lines.map (· ++ "\n"))

/-- The colours of the terminal. -/
inductive Colour where
  | green
  | red
  | blue
  | yellow
  deriving DecidableEq, Repr

/-- How the terminal is told to use a colour. -/
def Colour.code : Colour → String
  | green => "\x1b[0;32m"
  | red => "\x1b[0;31m"
  | blue => "\x1b[0;34m"
  | yellow => "\x1b[1;33m"

/-- A text in a colour. -/
def Colour.paint (c : Colour) (s : String) : String := c.code ++ s ++ "\x1b[0m"

namespace FlowTool

open Colour

/-- What is printed when no command is given, or an unknown one. -/
def usage : List String :=
  ["Flow definition tools for the USSD flow engine.", "", "Usage:",
    "    python scripts/flow_tools.py list          # List available flows",
    "    python scripts/flow_tools.py validate      # Validate all flows",
    "    python scripts/flow_tools.py validate FILE # Validate specific flow",
    "    python scripts/flow_tools.py show FILE     # Show flow details", ""]

/-- A text, or another one in the place of an empty one. -/
def orElse (s other : String) : String := if s = "" then other else s

/-- Whether a path leads to anything. -/
def finds (tree : FileTree) (path : FileName) : Except LoadError Bool :=
  (tree.contains path).mapError .barred

/-- Loads a flow; a fault of the definition is a result, any other cause a failure. -/
def load (tree : FileTree) (path : FileName) : Except LoadError (Except LoadError Flow) :=
  match Flow.loadFile tree path.text path with
  | .ok f => .ok (.ok f)
  | .error e => if e.isReported then .ok (.error e) else .error e

/-! ## Listing -/

/-- The lines about one file of the list. -/
def listedLines (path : FileName) (r : Except LoadError Flow) : List String :=
  ["  " ++ green.paint "•" ++ " " ++ path.stem, "    Path: " ++ path.text] ++
    (match r with
    | .ok f =>
      ["    Name: " ++ orElse (f.name.getD "") "-",
        "    Nodes: " ++ Number.natText f.size ++ " (start: " ++ f.startNode ++ ")"]
    | .error e => ["    " ++ red.paint ("Error loading: " ++ e.message)]) ++ [""]

/-- Lists the flow files of a directory. -/
def list (tree : FileTree) (directory : FileName) : Except LoadError ToolRun := do
  let title := [blue.paint "Available flows:", ""]
  if !(← finds tree directory) then
    return ⟨title ++ [red.paint ("  No flows directory found at " ++ directory.text)], none⟩
  let paths ← Flow.discover tree directory
  if paths.isEmpty then
    return ⟨title ++ [yellow.paint ("  No flow files found in " ++ directory.text ++ "/")], none⟩
  let files ← paths.mapM fun path => do return listedLines path (← load tree path)
  return ⟨title ++ files.flatten, none⟩

/-! ## Validating -/

/-- How the findings of a severity are called, and their colour. -/
def label : Severity → String
  | .error => red.paint "error:"
  | .warning => yellow.paint "warning:"
  | .suggestion => blue.paint "hint:"

/-- The line about a finding. -/
def findingLine (i : Finding) : String :=
  let place := if i.node = "" then "" else "[" ++ i.node ++ "] "
  "      " ++ label i.severity ++ " " ++ place ++ i.message

/-- The lines about all findings: errors first, suggestions last. -/
def findingLines (r : Report) : List String :=
  ([.error, .warning, .suggestion].flatMap r.ofSeverity).map findingLine

/-- The verdict on a flow in a few words. -/
def verdict (r : Report) : String :=
  if !r.isValid then red.paint ("✗ " ++ Number.natText r.errors.length ++ " error(s)")
  else match (r.ofSeverity .warning).length with
    | 0 => green.paint "✓ Valid"
    | n => yellow.paint ("⚠ " ++ Number.natText n ++ " warning(s)")

/-- Validates one file: the lines about it, and whether its flow is valid. -/
def validateFile (tree : FileTree) (path : FileName) : Except LoadError (List String × Bool) := do
  let start := "  Checking " ++ path.last ++ "... "
  if !(← finds tree path) then return ([start ++ red.paint "✗ File not found"], false)
  match ← load tree path with
  | .error e => return ([start ++ red.paint ("✗ Invalid: " ++ e.message)], false)
  | .ok f =>
    let r := f.report Limits.standard
    return ((start ++ verdict r) :: findingLines r, r.isValid)

/-- Validates files. -/
def validate (tree : FileTree) (paths : List FileName) : Except LoadError ToolRun := do
  if paths.isEmpty then return ⟨[red.paint "No flow files found"], some 1⟩
  let results ← paths.mapM (validateFile tree)
  let allValid := results.all Prod.snd
  let ending := if allValid then green.paint "All flows are valid!"
    else red.paint "Some flows have errors."
  return ⟨[blue.paint "Validating flows...", ""] ++ (results.map Prod.fst).flatten ++ ["", ending],
    some (if allValid then 0 else 1)⟩

/-! ## Showing -/

/-- The lines about where a node leads. -/
def edgeLines (n : Node) : List String :=
  match n.behaviour with
  | .menu options => options.map fun o =>
    "       " ++ o.key ++ ". " ++ o.text ++ " → " ++ orElse (o.target.getD "") "(end)"
  | _ => n.targets.map fun t => "       → " ++ t

/-- The lines about a node. -/
def nodeLines (f : Flow) (n : Node) : List String :=
  let mark := if n.id = f.startNode then blue.paint "▶" else " "
  ["  " ++ mark ++ " " ++ n.id ++ " (" ++ n.kind.text ++ ")"] ++
    (if n.text = "" then [] else ["       Text: " ++ n.text]) ++ edgeLines n

/-- The lines about a flow as a whole. -/
def headLines (f : Flow) : List String :=
  let name := f.name.getD ""
  [green.paint "Flow:" ++ " " ++ f.id ++ " v" ++ Number.intText f.version] ++
    (if name = "" then [] else ["  Name: " ++ name]) ++ ["  Start: " ++ f.startNode] ++
    (if f.defaults.items.isEmpty then []
      else ["  Variables: " ++ ", ".intercalate (f.defaults.keys.mergeSort fun a b => a ≤ b)]) ++
    [""]

/-- The lines about the shape of a flow. -/
def shapeLines (s : FlowStats) : List String :=
  [green.paint "Shape:", "  Edges: " ++ Number.natText s.totalEdges,
    "  Reachable nodes: " ++ Number.natText s.reachableNodes,
    "  Max depth: " ++ Number.natText s.maxDepth]

/-- All lines about a flow. -/
def flowLines (f : Flow) : List String :=
  headLines f ++ [green.paint ("Nodes (" ++ Number.natText f.size ++ "):")] ++
    f.nodes.items.flatMap (nodeLines f) ++ [""] ++ shapeLines (f.report Limits.standard).stats

/-- The first of some paths that leads to something. -/
def firstFound (tree : FileTree) : List FileName → Except LoadError (Option FileName)
  | [] => .ok none
  | path :: rest => do if ← finds tree path then return some path else firstFound tree rest

/-- The file that a name stands for: the file of that path, or else, if the name
has no suffix, the first flow file of that name in the directory. -/
def resolve (tree : FileTree) (directory : FileName) (name : String) :
    Except LoadError FileName := do
  let path := FileName.ofText name
  let candidates := if path.suffix ≠ "" then []
    else LoadError.suffixes.map fun s => directory.join (.ofText (name ++ s))
  return (← firstFound tree (path :: candidates)).getD path

/-- Shows a flow. -/
def «show» (tree : FileTree) (directory : FileName) (name : String) : Except LoadError ToolRun := do
  let path ← resolve tree directory name
  if !(← finds tree path) then return ⟨[red.paint ("Flow file not found: " ++ name)], some 1⟩
  let title := [blue.paint ("Flow file: " ++ path.last), "".pushn '=' 50, ""]
  match ← load tree path with
  | .ok f => return ⟨title ++ flowLines f, none⟩
  | .error e => return ⟨title ++ [red.paint ("Error loading flow: " ++ e.message)], some 1⟩

/-! ## Commands -/

/-- The commands of the tool. -/
inductive Command where
  | help
  | list
  /-- Validates a file, or all flow files. -/
  | validate (file : Option String)
  | «show» (name : Option String)
  | unknown (word : String)
  deriving DecidableEq, Repr

/-- The command that some arguments ask for.  A command's word may be in any
case, and an empty file name counts as none. -/
def Command.ofArguments : List String → Command
  | [] => help
  | word :: rest =>
    match Text.lower word with
    | "list" => list
    | "validate" => validate (rest.head?.filter (· ≠ ""))
    | "show" => «show» rest.head?
    | other => unknown other

/-- The paths that a command looks at. -/
def Command.paths (directory : FileName) : Command → List FileName
  | list | validate none => [directory]
  | validate (some file) => [.ofText file]
  | «show» (some name) =>
    .ofText name :: LoadError.suffixes.map fun s => directory.join (.ofText (name ++ s))
  | help | «show» none | unknown _ => []

/-- Carries out a command. -/
def perform (tree : FileTree) (directory : FileName) : Command → Except LoadError ToolRun
  | .help => .ok ⟨usage, some 1⟩
  | .list => list tree directory
  | .validate (some file) => validate tree [.ofText file]
  | .validate none => do validate tree (← Flow.discover tree directory)
  | .show (some name) => «show» tree directory name
  | .show none => .ok ⟨[red.paint "Usage: flow_tools.py show <flow_name>"], some 1⟩
  | .unknown word => .ok ⟨red.paint ("Unknown command: " ++ word) :: usage, some 1⟩

/-- Runs the tool. -/
def run (tree : FileTree) (directory : FileName) (arguments : List String) :
    Except LoadError ToolRun :=
  perform tree directory (.ofArguments arguments)

end FlowTool

end UssdFlows
