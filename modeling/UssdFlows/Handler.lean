import UssdFlows.Action.Basic
import UssdFlows.Flow.Condition
import UssdFlows.Outcome

/-!
# Handlers

A handler interprets an input at a node.  Menus look the input up among their
options; input nodes check and capture it; conditionals compare a variable;
action nodes go by the result of their action; end nodes complete the session.

Handlers do not change the session: what they capture travels in the outcome.
-/

namespace UssdFlows

/-- Who interprets inputs; payment and api nodes share one. -/
inductive Handler where
  | menu
  | input
  | conditional
  | action
  | terminal
  deriving DecidableEq, Repr

/-- Why a handler has no outcome. -/
inductive HandlerError where
  | wrongKind (handler : Handler) (node : Node)
  | outcome (error : OutcomeError)
  /-- A whole number has too many digits to be stored in a variable. -/
  | overlong
  | raised (message : String)
  deriving DecidableEq, Repr

namespace Handler

/-- The handler of a kind of node. -/
def ofKind : NodeKind → Handler
  | .menu => menu
  | .input => input
  | .conditional => conditional
  | .payment => action
  | .api => action
  | .terminal => terminal

/-- The name of a handler. -/
def name : Handler → String
  | menu => "MenuNodeHandler"
  | input => "InputNodeHandler"
  | conditional => "ConditionalNodeHandler"
  | action => "ActionNodeHandler"
  | terminal => "EndNodeHandler"

/-- Reports an outcome error as one of the handler. -/
def lift : Except OutcomeError Outcome → Except HandlerError Outcome
  | .ok o => .ok o
  | .error e => .error (.outcome e)

/-- Follows an edge, with details. -/
def followWith (target : Option String) (captured : Dict String)
    (metadata : List (String × Value)) : Except HandlerError Outcome :=
  (lift (Outcome.follow target captured)).map fun o => o.withMetadata metadata

/-- Chooses the option whose key was typed, blanks around it aside. -/
def choose (n : Node) (input : String) : Except HandlerError Outcome :=
  match n.option? (Text.strip input) with
  | none =>
    lift (Outcome.fail "Invalid option selected" (.ofList [("selected", .text input)]))
  | some o => followWith o.target .empty [("selected_option", .text o.key)]

/-- Captures an input that is acceptable. -/
def captureInput (spec : InputSpec) (next : Option String) (input : String) :
    Except HandlerError Outcome :=
  if spec.isRequired && Text.strip input == "" then lift (Outcome.fail "Input is required" .empty)
  else
    match spec.pattern with
    | some p =>
      if p.accepts input then followWith next (.ofList [(spec.variableName, input)]) []
      else lift (Outcome.fail "Invalid input format" (.ofList [("pattern", .text p.source)]))
    | none => followWith next (.ofList [(spec.variableName, input)]) []

/-- Takes the branch that a condition selects; one that leads nowhere falls back
to `next`. -/
def branch (c : Condition) (b : Branches) (next : Option String) (bindings : Dict String) :
    Except HandlerError Outcome :=
  let holds := c.holds bindings
  followWith ((if holds then b.success else b.failure).or next) .empty
    [("condition_matched", .bool holds)]

/-- Goes by the result of an action: a success follows its branch, a failure
its own branch if there is one and stays otherwise.  The data are turned into
variables before anything else. -/
def afterAction (nodeId : String) (b : Branches) (r : ActionResult) :
    Except HandlerError Outcome :=
  let metadata := [("action_success", .bool r.succeeded), ("action_error", .ofOption r.error)]
  let captured := r.captured nodeId
  if r.data.any fun e => ActionResult.isOverlong e.2 then .error .overlong
  else if r.succeeded then followWith b.success captured metadata
  else match b.failure with
    | some target => .ok ⟨.to target, captured, .ofList metadata⟩
    | none => lift (Outcome.fail "Action failed" (.ofList metadata))

/-- Interprets an input at a node; `result` is the result of the node's action,
should it have one. -/
def handle (h : Handler) (n : Node) (bindings : Dict String) (input : String)
    (result : ActionResult) : Except HandlerError Outcome :=
  match h, n.behaviour with
  | menu, .menu .. => choose n input
  | Handler.input, .input spec next => captureInput spec next input
  | conditional, .conditional c b next => branch c b next bindings
  | action, .payment b .. => afterAction n.id b result
  | action, .api b .. => afterAction n.id b result
  | terminal, _ => lift (Outcome.finish .empty)
  | h, _ => .error (.wrongKind h n)

/-- Whether a handler has an action carried out for a node. -/
def runsAction (h : Handler) (n : Node) : Bool := h == action && n.isAction

end Handler

/-- The wording of a handler error. -/
def HandlerError.message : HandlerError → String
  | wrongKind h n => h.name ++ " cannot handle " ++ n.kind.text ++ " node '" ++ n.id ++ "'"
  | outcome e => e.message
  | overlong => Number.overlongText
  | raised message => message

end UssdFlows
