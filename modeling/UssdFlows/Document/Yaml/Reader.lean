import UssdFlows.Document.Value
import UssdFlows.Document.Yaml.Node

/-!
# Reading block notation

`Yaml.read` gives the value of the only document of a text, or nothing if the
text holds no document.  In a mapping the later of two equal keys wins and
stands at the earlier place; the pairs of merged mappings come before its own.
-/

namespace UssdFlows.Yaml

/-- Whether a value may be a key. -/
def isKey : Value → Bool
  | .list _ | .record _ => false
  | _ => true

/-- The record of a list of members, of which later ones win. -/
def recordOf (members : List (Value × Value)) : List (Value × Value) :=
  members.foldl (fun ms m => Value.putMember ms m.1 m.2) []

/-- The value of a scalar. -/
def scalarValue (tag : Tag) (text : String) : Except Fault Value :=
  match tag with
  | .null => .ok .null
  | .bool => .bool <$> truthOf text
  | .int => .int <$> wholeOf text
  | .float => .real <$> realOf text
  | .moment => .moment <$> momentOf text
  | .binary =>
    match (if text.toList.all fun c => c.toNat < 128 then octetsOf? [] text.toList else none) with
    | some octets => .ok (.bytes octets)
    | none => .error (.wrongShape tag.address)
  | .text => .ok (.text text)
  | .sequence | .mapping | .set | .ordered | .pairs => .error (.wrongShape tag.address)
  | .merge | .whole | .other _ => .error (.unknownTag tag.address)

/-- The only member of a record with one member, as a list of two. -/
def singlePair (tag : Tag) : Value → Except Fault Value
  | .record [(k, v)] => .ok (.list [k, v])
  | _ => .error (.wrongShape tag.address)

/-- The tag that an item of an ordered mapping must have for its parts. -/
def isPairNode : Node → Bool
  | .mapping _ [_] => true
  | _ => false

/-- The text of a mapping that stands for a scalar: that of its key for the
whole. -/
def wholeText? : List (Node × Node) → Option String
  | [] => none
  | (.scalar .whole _, .scalar _ text) :: _ => some text
  | _ :: rest => wholeText? rest

mutual

/-- The value of a node. -/
def Node.value : Node → Except Fault Value
  | .scalar tag text => scalarValue tag text
  | .sequence tag items =>
    match tag with
    | .sequence => .list <$> values items
    | .ordered | .pairs => do
      if items.all isPairNode then .list <$> ((← values items).mapM (singlePair tag))
      else throw (.wrongShape tag.address)
    | .other a => .error (.unknownTag a)
    | .merge | .whole => .error (.unknownTag tag.address)
    | _ => .error (.wrongShape tag.address)
  | .mapping tag pairs =>
    match tag with
    | .mapping => do
      let (merged, own) ← entries pairs
      return .record (recordOf (merged ++ own))
    | .set => do
      let (merged, own) ← entries pairs
      return .list ((recordOf (merged ++ own)).map Prod.fst)
    | .other a => .error (.unknownTag a)
    | .merge | .whole => .error (.unknownTag tag.address)
    | .sequence | .ordered | .pairs => .error (.wrongShape tag.address)
    | scalarTag =>
      match wholeText? pairs with
      | some text => scalarValue scalarTag text
      | none => .error (.wrongShape tag.address)

/-- The values of several nodes. -/
def values : List Node → Except Fault (List Value)
  | [] => .ok []
  | n :: rest => do
    let v ← n.value
    let vs ← values rest
    return v :: vs

/-- The members that a mapping takes over from merged mappings, and its own. -/
def entries : List (Node × Node) → Except Fault (List (Value × Value) × List (Value × Value))
  | [] => .ok ([], [])
  | (k, v) :: rest => do
    match k with
    | .scalar .merge _ =>
      let taken ← mergedEntries v
      let (merged, own) ← entries rest
      return (taken ++ merged, own)
    | .scalar .whole text =>
      let value ← v.value
      let (merged, own) ← entries rest
      return (merged, (.text text, value) :: own)
    | _ =>
      let key ← k.value
      if !isKey key then throw .unusableKey
      let value ← v.value
      let (merged, own) ← entries rest
      return (merged, (key, value) :: own)

/-- The members of a mapping that is merged into another one, or of a list of
mappings, of which the first ones win. -/
def mergedEntries : Node → Except Fault (List (Value × Value))
  | .mapping _ pairs => do
    let (merged, own) ← entries pairs
    return merged ++ own
  | .sequence _ items => listEntries items
  | .scalar .. => .error (.expected "a mapping to merge")

/-- The members of the mappings of a list, the last mapping first. -/
def listEntries : List Node → Except Fault (List (Value × Value))
  | [] => .ok []
  | .mapping _ pairs :: rest => do
    let (merged, own) ← entries pairs
    let more ← listEntries rest
    return more ++ (merged ++ own)
  | _ :: _ => .error (.expected "a mapping to merge")

end

/-- Reads the only document of a text, if there is one. -/
def read (s : String) : Except Fault (Option Value) := do
  match ← compose (← tokens s) with
  | none => return none
  | some n => return some (← n.value)

/-! ## Faults of a text -/

/-- A tree has a scalar with a tag.  A mapping may stand for a scalar: for the text that it
has for the whole. -/
inductive Node.Has (tag : Tag) (text : String) : Node → Prop
  | scalar : Has tag text (.scalar tag text)
  | whole {pairs : List (Node × Node)} (h : wholeText? pairs = some text) :
    Has tag text (.mapping tag pairs)
  | item {t : Tag} {items : List Node} {n : Node} (hn : n ∈ items) (h : Has tag text n) :
    Has tag text (.sequence t items)
  | key {t : Tag} {pairs : List (Node × Node)} {p : Node × Node} (hp : p ∈ pairs)
    (h : Has tag text p.1) : Has tag text (.mapping t pairs)
  | value {t : Tag} {pairs : List (Node × Node)} {p : Node × Node} (hp : p ∈ pairs)
    (h : Has tag text p.2) : Has tag text (.mapping t pairs)

/-- A fault of a text that is not read: it breaks the notation, or it cannot be cut into
tokens, or it has a scalar whose value cannot be made. -/
inductive HasFault (text : String) (fault : Fault) : Prop
  | grammar (h : fault.isGrammar = true)
  | cutting (h : tokens text = .error fault)
  | scalar {ts : List Token} {n : Node} {tag : Tag} {s : String} (hts : tokens text = .ok ts)
    (hn : compose ts = .ok (some n)) (hhas : n.Has tag s) (h : scalarValue tag s = .error fault)

end UssdFlows.Yaml
