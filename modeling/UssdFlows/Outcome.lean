import UssdFlows.Data.KeyedList
import UssdFlows.Document.Value

/-!
# Outcomes

What comes out of interpreting an input at a node: the session moves to
another node, completes, or stays where it is with an error shown.  An outcome
also carries the variables captured on the way and details for the record.

Some variable names are reserved: none may be captured as `cls`, and none as
`node_id` on a move to a node.
-/

namespace UssdFlows

/-- Where a session goes. -/
inductive Move where
  | to (node : String)
  | finish
  /-- Stays at its node; the message is shown. -/
  | stay (message : String)
  deriving DecidableEq, Repr

/-- The result of interpreting an input at a node. -/
structure Outcome where
  move : Move
  /-- Variables to store when the session moves. -/
  captured : Dict String
  metadata : Dict Value

/-- Why there is no outcome. -/
inductive OutcomeError where
  | ambiguous
  | reservedName (name : String)
  deriving DecidableEq, Repr

/-- The wording of an outcome error. -/
def OutcomeError.message : OutcomeError → String
  | ambiguous => "NavigationOutcome needs exactly one of next_node_id, terminate or error"
  | reservedName name => "the name '" ++ name ++ "' is reserved"

namespace Outcome

/-- The node that the session moves to. -/
def target? (o : Outcome) : Option String :=
  match o.move with
  | .to node => some node
  | _ => none

/-- Whether the session completes. -/
def isFinal (o : Outcome) : Bool := o.move == .finish

/-- The message that is shown if the session stays. -/
def error? (o : Outcome) : Option String :=
  match o.move with
  | .stay message => some message
  | _ => none

/-- Whether the session stays. -/
def isError (o : Outcome) : Bool := o.error?.isSome

/-- An outcome from its parts, exactly one of which must be given: a node to
move to, that the session completes, or an error. -/
def ofParts (target : Option String) (isFinal : Bool) (error : Option String)
    (captured : Dict String) (metadata : Dict Value) : Except OutcomeError Outcome :=
  match target, isFinal, error with
  | some node, false, none => .ok ⟨.to node, captured, metadata⟩
  | none, true, none => .ok ⟨.finish, captured, metadata⟩
  | none, false, some message => .ok ⟨.stay message, captured, metadata⟩
  | _, _, _ => .error .ambiguous

/-- The first of some reserved names that a dictionary has. -/
def reserved? {α : Type} (names : List String) (d : Dict α) : Option String :=
  names.find? fun n => d.contains n

/-- Goes on unless a reserved name is used. -/
def unlessReserved {α : Type} (names : List String) (d : Dict α) (o : Outcome) :
    Except OutcomeError Outcome :=
  match reserved? names d with
  | some name => .error (.reservedName name)
  | none => .ok o

/-- Moves to a node. -/
def advance (node : String) (captured : Dict String) : Except OutcomeError Outcome :=
  unlessReserved ["cls", "node_id"] captured ⟨.to node, captured, .empty⟩

/-- Completes the session. -/
def finish (captured : Dict String) : Except OutcomeError Outcome :=
  unlessReserved ["cls"] captured ⟨.finish, captured, .empty⟩

/-- Stays with a message. -/
def fail (message : String) (metadata : Dict Value) : Except OutcomeError Outcome :=
  unlessReserved ["cls", "message"] metadata ⟨.stay message, .empty, metadata⟩

/-- Moves along an edge: to its node, or to the end if it leads to none. -/
def follow (target : Option String) (captured : Dict String) : Except OutcomeError Outcome :=
  match target with
  | some node => advance node captured
  | none => finish captured

/-- The outcome with more details. -/
def withMetadata (o : Outcome) (metadata : List (String × Value)) : Outcome :=
  { o with metadata := o.metadata.putAll metadata }

/-- Following an edge without capturing anything always succeeds. -/
theorem follow_empty (target : Option String) :
    follow target .empty =
      .ok ⟨match target with | some node => .to node | none => .finish, .empty, .empty⟩ := by
  cases target <;> rfl

end Outcome

/-- An outcome as the members of a document. -/
def Outcome.members (o : Outcome) : List (String × Value) :=
  [("next_node_id", .ofOption o.target?), ("terminate", .bool o.isFinal),
    ("error", .ofOption o.error?),
    ("captured", .object (o.captured.items.map fun e => (e.1, .text e.2))),
    ("metadata", .object o.metadata.items)]

end UssdFlows
