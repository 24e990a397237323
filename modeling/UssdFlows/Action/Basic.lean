import UssdFlows.Flow.Basic
import UssdFlows.Session

/-!
# External actions

Payment and api nodes have an effect outside: a service is asked to do
something, and it answers, breaks, or never answers.  An executor is whatever
stands between; its answer may depend on everything it was asked before.
-/

namespace UssdFlows

/-- What a service says about an action. -/
structure ActionResult where
  succeeded : Bool
  /-- What it gives back. -/
  data : List (String × Value)
  error : Option String

/-- What an executor is asked: to act for a node on behalf of a session. -/
structure ActionRequest where
  node : Node
  session : Session

/-- How a call to an executor ends. -/
inductive ActionAnswer where
  | result (r : ActionResult)
  | raised (message : String)
  /-- The call was given up after the time it is allowed. -/
  | unanswered

/-- The stand-in for services: an answer to every request, given all requests
before it. -/
structure Executor where
  answer : (earlier : List ActionRequest) → ActionRequest → ActionAnswer

namespace ActionResult

/-- An action that did not succeed. -/
def failed (error : String) : ActionResult := ⟨false, [], some error⟩

/-- Whether a value can be shown in a variable: texts, numbers and truth values. -/
def isScalar : Value → Bool
  | .text _ | .unpaired _ | .int _ | .real _ | .bool _ => true
  | _ => false

/-- Whether a value is a whole number with too many digits to be shown. -/
def isOverlong : Value → Bool
  | .int n => !Number.isShowable n
  | _ => false

/-- The variables that the result of an action at a node sets: the scalar data
under `<node>_<key>`, and whether it succeeded under `<node>_status`, which
wins over data of that name. -/
def captured (nodeId : String) (r : ActionResult) : Dict String :=
  (KeyedList.ofList ((r.data.filter fun e => isScalar e.2).map fun e =>
    (nodeId ++ "_" ++ e.1, e.2.display))).put
    (nodeId ++ "_status", if r.succeeded then "success" else "failed")

/-- The status variable tells whether the action succeeded, whatever the data. -/
theorem captured_status (nodeId : String) (r : ActionResult) :
    (r.captured nodeId).find? (nodeId ++ "_status") =
      some (nodeId ++ "_status", if r.succeeded then "success" else "failed") :=
  KeyedList.find?_put_self ..

end ActionResult

/-- A call that broke or was given up counts as a failure. -/
def ActionAnswer.toResult : ActionAnswer → ActionResult
  | result r => r
  | raised message => .failed message
  | unanswered => .failed "timeout"

namespace Executor

/-- The amount and the currency of a payment. -/
def charge (n : Node) : List (String × Value) :=
  match n.behaviour with
  | .payment _ amount currency => [("amount", .real amount.value), ("currency", .text currency)]
  | _ => []

/-- Reaches no service: every action succeeds, or every action fails. -/
def simulated (succeeds : Bool) : Executor where
  answer _ request :=
    if succeeds then
      .result ⟨true, ("status", .text "simulated") :: charge request.node, none⟩
    else .result (.failed "Simulated failure")

/-- Gives prepared answers one after another, and then breaks. -/
def prepared (answers : List ActionAnswer) : Executor where
  answer earlier _ := answers.getD earlier.length (.raised "script exhausted")

end Executor

end UssdFlows
