import UssdFlows.Files.Tree
import UssdFlows.Flow.Definition

/-!
# Loading flows

A flow is loaded from a document, from JSON text, or from a file of either
notation.  Every way ends in a flow or in one of the causes of `LoadError`;
`LoadError.isReported` tells the causes that are reported as faults of the
definition from those that lie outside of it.
-/

namespace UssdFlows

variable [Libraries]

/-- Where a JSON text comes from. -/
inductive JsonSource where
  | document
  | file
  deriving DecidableEq, Repr

/-- The word for a source. -/
def JsonSource.text : JsonSource → String
  | document => "document"
  | file => "file"

/-- Why a flow could not be loaded. -/
inductive LoadError where
  | notFound (path : String)
  | notAFile (path : String)
  /-- The system does not say what a path leads to, or what a directory holds. -/
  | barred (why : String)
  | unsupportedType (suffix : String)
  /-- The system does not open a file. -/
  | unreadable (why : String)
  /-- The octets of a file are not text. -/
  | notText
  | badJson (source : JsonSource) (text : String) (failure : Json.Failure)
  | badYaml (fault : Yaml.Fault)
  | emptyFile
  | notRecord
  | invalid (problems : List Problem)
  deriving DecidableEq, Repr

namespace LoadError

/-- The suffixes of flow files. -/
def suffixes : List String := [".json", ".yaml", ".yml"]

/-- The number of problems in words. -/
def countText (n : Nat) : String :=
  Number.natText n ++ (if n = 1 then " validation error" else " validation errors")

/-- One problem, as two lines. -/
def problemLines (p : Problem) : String :=
  let part : PathPart → String
    | .name s => s
    | .index n => Number.intText n
  let why := match p.cause with
    | .refused message => message
    | c => c.tag
  ".".intercalate (p.path.map part) ++ "\n  " ++ why

/-- The wording of a cause. -/
def message : LoadError → String
  | notFound path => "Flow file not found: " ++ path
  | notAFile path => "Flow path is not a file: " ++ path
  | barred why => why
  | unsupportedType suffix =>
    "Unsupported flow file type '" ++ suffix ++ "'. Use one of: (" ++
      ", ".intercalate (suffixes.map Value.quoted) ++ ")"
  | unreadable why => "Failed to read flow file: " ++ why
  | notText => "the file is not encoded in UTF-8"
  | badJson source text failure =>
    match failure.fault with
    | .tooManyDigits count => Number.digitLimitText count
    | .raised why => why
    | _ => "Failed to parse JSON " ++ source.text ++ ": " ++ failure.message text
  | badYaml fault => "Failed to parse YAML file: " ++ fault.message
  | emptyFile => "Flow file is empty"
  | notRecord => "Flow definition must be an object (dict)"
  | invalid problems =>
    "Flow definition is invalid: " ++ countText problems.length ++ " for FlowGraph\n" ++
      "\n".intercalate (problems.map problemLines)

/-- The wording of a cause that lies outside of the definition. -/
def valueText : LoadError → String
  | badYaml fault => fault.message
  | e => e.message

/-- Whether a cause is reported as a fault of the definition.  A file that is
not there, octets that are not text, numbers and dates that cannot be
represented, and whatever a library gives up on are reported as what they are. -/
def isReported : LoadError → Bool
  | notFound _ | barred _ | notText => false
  | badJson _ _ failure => failure.fault.isGrammar
  | badYaml fault => fault.isGrammar
  | invalid problems => !problems.any Problem.isRaised
  | _ => true

end LoadError

namespace Flow

/-- Loads a flow from a document. -/
def load (spareId : String) (document : Value) : Except LoadError Flow :=
  match ofDocument spareId document with
  | .ok f => .ok f
  | .bad problems => .error (.invalid problems)

/-- The document that a JSON text holds, which must be a record. -/
def readJson (text : String) : Except LoadError Value :=
  match Libraries.json text with
  | .error failure => .error (.badJson .document text failure)
  | .ok (.record members) => .ok (.record members)
  | .ok _ => .error .notRecord

/-- Loads a flow from JSON text. -/
def loadJson (spareId : String) (text : String) : Except LoadError Flow := do
  load spareId (← readJson text)

/-- The value that the octets of a file hold, by the suffix of its name. -/
def readOctets (suffix : String) (octets : ByteArray) : Except LoadError Value :=
  if suffix = ".json" then
    match textOf? octets with
    | none => .error .notText
    | some text =>
      match Libraries.json text with
      | .ok v => .ok v
      | .error failure => .error (.badJson .file text failure)
  else match Libraries.block octets with
    | .ok v => .ok (v.getD .null)
    | .error fault => .error (.badYaml fault)

/-- The document that the value of a file is: a record.  Without an id of its own
it has the stem of the file's name. -/
def documentOf (path : FileName) : Value → Except LoadError Value
  | .null => .error .emptyFile
  | .record members =>
    if (Value.member? members "id").isSome then .ok (.record members)
    else .ok (.record (members ++ [(.text "id", .text path.stem)]))
  | _ => .error .notRecord

/-- The document that a file holds. -/
def readFile (tree : FileTree) (shown : String) (path : FileName) : Except LoadError Value := do
  let octets ← match tree.look path with
    | .error why => throw (.barred why)
    | .ok none => throw (.notFound shown)
    | .ok (some .directory) => throw (.notAFile shown)
    | .ok (some (.file octets)) => pure octets
  let suffix := path.suffix.toLower
  if !LoadError.suffixes.contains suffix then throw (.unsupportedType path.suffix)
  documentOf path (← readOctets suffix (← octets.mapError .unreadable))

/-- Loads a flow from a file; `shown` is the path as it is reported. -/
def loadFile (tree : FileTree) (shown : String) (path : FileName) : Except LoadError Flow := do
  load path.stem (← readFile tree shown path)

/-- The flow files of a directory, sorted by name. -/
def discover (tree : FileTree) (directory : FileName) : Except LoadError (List FileName) := do
  let names ← (tree.names directory).mapError .barred
  return (names.map directory.child).filter fun p => LoadError.suffixes.contains p.suffix.toLower

end Flow

end UssdFlows
