import UssdFlows.Document.Yaml.Tag
import UssdFlows.Document.Yaml.Token

/-!
# Nodes of block notation

A document is a tree of nodes: scalars, sequences and mappings, each with a
tag.  `compose` builds the tree from tokens.  An alias stands for the node
that bears its anchor; the anchor must be complete before the alias, so no
node contains itself.
-/

namespace UssdFlows.Yaml

/-- A node of a document. -/
inductive Node where
  | scalar (tag : Tag) (text : String)
  | sequence (tag : Tag) (items : List Node)
  | mapping (tag : Tag) (pairs : List (Node × Node))
  deriving Repr

/-- An empty scalar without tag. -/
def Node.empty : Node := scalar .null ""

/-- What is left of the tokens, and the names known so far. -/
structure Composer where
  rest : List Token
  anchors : List (String × Node)
  /-- Handles of tags with the start of the address that they stand for. -/
  handles : List (String × String)

/-- A step of composing a node. -/
abbrev Composing := StateT Composer (Except Fault)

namespace Composing

/-- Refuses the tokens. -/
def refuse {α : Type} (what : String) : Composing α := throw (.expected what)

/-- The next token. -/
def peek : Composing Token := return (← get).rest.head?.getD .streamEnd

/-- Moves past the next token. -/
def skip : Composing Unit := modify fun s => { s with rest := s.rest.tail }

/-- Moves past the next token if it is the given one. -/
def accept (t : Token) : Composing Bool := do
  if (← peek) == t then
    skip
    return true
  else return false

/-- The handles that every document knows. -/
def standardHandles : List (String × String) := [("!", "!"), ("!!", Tag.space)]

/-- The address of a tag with a handle. -/
def expand (h : Option String) (ending : String) : Composing String := do
  match h with
  | none => return ending
  | some h =>
    match (← get).handles.lookup h with
    | some start => return start ++ ending
    | none => refuse "a known tag handle"

/-- The anchor and the tag in front of a node, in either order. -/
def properties : Composing (Option String × Option String) := do
  match ← peek with
  | .anchor name => do
    skip
    match ← peek with
    | .tag h ending => do
      skip
      return (some name, some (← expand h ending))
    | _ => return (some name, none)
  | .tag h ending => do
    skip
    match ← peek with
    | .anchor name => do
      skip
      return (some name, some (← expand h ending))
    | _ => return (none, some (← expand h ending))
  | _ => return (none, none)

/-- The tag of a scalar: the one written, or that of its form; the tag `!`
asks for the form even in quotes. -/
def scalarTag (tag : Option String) (plain : Bool) (text : String) : Tag :=
  match tag with
  | none => if plain then .ofForm text else .text
  | some "!" => .ofForm text
  | some address => .ofAddress address

/-- The tag of a collection: the one written, or its own. -/
def collectionTag (tag : Option String) (own : Tag) : Tag :=
  match tag with
  | none => own
  | some "!" => own
  | some address => .ofAddress address

/-- Remembers a node under its anchor. -/
def register (anchor : Option String) (n : Node) : Composing Unit := do
  match anchor with
  | none => pure ()
  | some name =>
    if ((← get).anchors.lookup name).isSome then throw (.repeatedAnchor name)
    else modify fun s => { s with anchors := (name, n) :: s.anchors }

mutual

/-- A node.  `block` says whether it may be an indented collection, and `bare`
whether it may be a sequence at the column of its key. -/
def node : (fuel : Nat) → (block bare : Bool) → Composing Node
  | 0, _, _ => refuse "a shallower document"
  | fuel + 1, block, bare => do
    match ← peek with
    | .alias name => do
      skip
      match (← get).anchors.lookup name with
      | some n => return n
      | none => throw (.unknownAlias name)
    | _ => do
      let (anchor, tag) ← properties
      let n ← content fuel block bare anchor.isSome tag
      register anchor n
      return n

/-- The node behind its properties. -/
def content : (fuel : Nat) → (block bare anchored : Bool) → (tag : Option String) → Composing Node
  | 0, _, _, _, _ => refuse "a shallower document"
  | fuel + 1, block, bare, anchored, tag => do
    let t ← peek
    if bare && t == .dash then return .sequence (collectionTag tag .sequence) (← bareItems fuel)
    else match t with
      | .scalar text plain => do
        skip
        return .scalar (scalarTag tag plain text) text
      | .openBracket => do
        skip
        return .sequence (collectionTag tag .sequence) (← flowItems fuel true)
      | .openBrace => do
        skip
        return .mapping (collectionTag tag .mapping) (← flowPairs fuel true)
      | .sequenceStart =>
        if block then do
          skip
          return .sequence (collectionTag tag .sequence) (← blockItems fuel)
        else emptyNode anchored tag
      | .mappingStart =>
        if block then do
          skip
          return .mapping (collectionTag tag .mapping) (← blockPairs fuel)
        else emptyNode anchored tag
      | _ => emptyNode anchored tag
where
  /-- A node without content, which needs an anchor or a tag. -/
  emptyNode (anchored : Bool) (tag : Option String) : Composing Node :=
    if anchored || tag.isSome then return .scalar (scalarTag tag true "") ""
    else refuse "the content of a node"

/-- The items of an indented sequence. -/
def blockItems : (fuel : Nat) → Composing (List Node)
  | 0 => refuse "a shallower document"
  | fuel + 1 => do
    if ← accept .dash then
      let t ← peek
      let item ← if t == .dash || t == .blockEnd then pure .empty else node fuel true false
      return item :: (← blockItems fuel)
    else if ← accept .blockEnd then return []
    else refuse "the end of a block"

/-- The items of a sequence at the column of its key. -/
def bareItems : (fuel : Nat) → Composing (List Node)
  | 0 => refuse "a shallower document"
  | fuel + 1 => do
    if ← accept .dash then
      let t ← peek
      let item ←
        if t == .dash || t == .key || t == .value || t == .blockEnd then pure .empty
        else node fuel true false
      return item :: (← bareItems fuel)
    else return []

/-- The pairs of an indented mapping. -/
def blockPairs : (fuel : Nat) → Composing (List (Node × Node))
  | 0 => refuse "a shallower document"
  | fuel + 1 => do
    if ← accept .key then
      let k ← blockPart fuel
      let v ← if ← accept .value then blockPart fuel else pure .empty
      return (k, v) :: (← blockPairs fuel)
    else if ← accept .blockEnd then return []
    else refuse "the end of a block"

/-- A key or a value of an indented mapping, which may be empty. -/
def blockPart : (fuel : Nat) → Composing Node
  | 0 => refuse "a shallower document"
  | fuel + 1 => do
    let t ← peek
    if t == .key || t == .value || t == .blockEnd then pure .empty else node fuel true true

/-- The items between square brackets. -/
def flowItems : (fuel : Nat) → (first : Bool) → Composing (List Node)
  | 0, _ => refuse "a shallower document"
  | fuel + 1, first => do
    if ← accept .closeBracket then return []
    else
      if !first then
        if ← accept .comma then pure () else refuse "a comma or a closing bracket"
      if ← accept .closeBracket then return []
      else if ← accept .key then
        let k ← flowPart fuel .closeBracket
        let v ← if ← accept .value then flowValue fuel .closeBracket else pure .empty
        return .mapping .mapping [(k, v)] :: (← flowItems fuel false)
      else
        let item ← node fuel false false
        return item :: (← flowItems fuel false)

/-- The pairs between braces. -/
def flowPairs : (fuel : Nat) → (first : Bool) → Composing (List (Node × Node))
  | 0, _ => refuse "a shallower document"
  | fuel + 1, first => do
    if ← accept .closeBrace then return []
    else
      if !first then
        if ← accept .comma then pure () else refuse "a comma or a closing brace"
      if ← accept .closeBrace then return []
      else if ← accept .key then
        let k ← flowPart fuel .closeBrace
        let v ← if ← accept .value then flowValue fuel .closeBrace else pure .empty
        return (k, v) :: (← flowPairs fuel false)
      else
        let k ← node fuel false false
        return (k, .empty) :: (← flowPairs fuel false)

/-- A key between brackets, which may be empty. -/
def flowPart : (fuel : Nat) → (closing : Token) → Composing Node
  | 0, _ => refuse "a shallower document"
  | fuel + 1, closing => do
    let t ← peek
    if t == .value || t == .comma || t == closing then pure .empty else node fuel false false

/-- A value between brackets, which may be empty. -/
def flowValue : (fuel : Nat) → (closing : Token) → Composing Node
  | 0, _ => refuse "a shallower document"
  | fuel + 1, closing => do
    let t ← peek
    if t == .comma || t == closing then pure .empty else node fuel false false

end

/-! ## Documents -/

/-- Reads the directives before a document. -/
def directives : (fuel : Nat) → (version : Bool) → (handles : List (String × String)) →
    Composing (List (String × String))
  | 0, _, handles => return handles
  | fuel + 1, version, handles => do
    match ← peek with
    | .directive d => do
      skip
      match d with
      | .version major =>
        if version then refuse "one version directive"
        else if major ≠ 1 then refuse "a document of version 1"
        else directives fuel true handles
      | .tagHandle h start =>
        if (handles.lookup h).isSome then refuse "one meaning for a tag handle"
        else directives fuel version ((h, start) :: handles)
      | .other => directives fuel version handles
    | _ => return handles

/-- Moves past marks for the end of a document. -/
def skipEnds : (fuel : Nat) → Composing Unit
  | 0 => pure ()
  | fuel + 1 => do
    if ← accept .documentEnd then skipEnds fuel else pure ()

/-- The content of a document behind its start mark. -/
def explicitContent (fuel : Nat) : Composing Node := do
  match ← peek with
  | .directive _ | .documentStart | .documentEnd | .streamEnd => return .empty
  | _ => node fuel true false

/-- The only document of a stream, if there is one. -/
def document (fuel : Nat) : Composing (Option Node) := do
  let found ← match ← peek with
    | .streamEnd => pure none
    | .directive _ | .documentStart => do
      let own ← directives fuel false []
      modify fun s => { s with handles := own ++ standardHandles }
      if ← accept .documentStart then some <$> explicitContent fuel
      else refuse "the start of a document"
    | _ => some <$> node fuel true false
  skipEnds fuel
  if (← peek) == .streamEnd then return found else throw .severalDocuments

end Composing

/-- Builds the only document of a stream of tokens, if there is one. -/
def compose (ts : List Token) : Except Fault (Option Node) := do
  let fuel := 4 * ts.length + 8
  let (n, _) ← (Composing.document fuel).run ⟨ts, [], Composing.standardHandles⟩
  return n

end UssdFlows.Yaml
