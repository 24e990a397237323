import UssdFlows.Api.Address

/-!
# Endpoints

What the interface can be asked to do, by which method and at which path.
`Endpoint.find` finds the endpoint for a method and a path, or tells why there
is none (`find_eq_endpoint`).
-/

namespace UssdFlows

/-- What the interface can be asked to do. -/
inductive Endpoint where
  | startSession
  | sendInput (sessionId : String)
  | terminate (sessionId : String)
  | stats
  | session (sessionId : String)
  | validate
  | publish
  | flows
  | flow (flowId : String)
  | health
  | metrics
  | welcome
  deriving DecidableEq, Repr

/-- What is found for a method and a path. -/
inductive Destination where
  | endpoint (x : Endpoint)
  /-- There are endpoints at the path, but for other methods. -/
  | otherMethod
  /-- There are endpoints at the path without its final slashes. -/
  | moved
  | nowhere
  deriving DecidableEq, Repr

namespace Endpoint

/-- The method by which an endpoint is asked. -/
def method : Endpoint → String
  | startSession | sendInput _ | terminate _ | validate | publish => "POST"
  | stats | session _ | flows | flow _ | health | metrics | welcome => "GET"

/-- The endpoints at a path.  Of two for one method the first one counts; an id
is never empty. -/
def atPath : List String → List Endpoint
  | ["", ""] => [welcome]
  | ["", "health"] => [health]
  | ["", "metrics"] => [metrics]
  | ["", "sessions"] => [startSession]
  | ["", "sessions", "stats"] => [stats, session "stats"]
  | ["", "sessions", id] => if id = "" then [] else [session id]
  | ["", "sessions", id, "input"] => if id = "" then [] else [sendInput id]
  | ["", "sessions", id, "terminate"] => if id = "" then [] else [terminate id]
  | ["", "flows"] => [publish, flows]
  | ["", "flows", "validate"] => [validate, flow "validate"]
  | ["", "flows", id] => if id = "" then [] else [flow id]
  | _ => []

/-- What is found for a method and a path. -/
def find (method : String) (path : List String) : Destination :=
  match (atPath path).find? fun x => x.method == method with
  | some x => .endpoint x
  | none =>
    if !(atPath path).isEmpty then .otherMethod
    else if (atPath (Address.withoutFinalSlashes path)).isEmpty then .nowhere
    else .moved

/-- The name under which answers of an endpoint are counted; only those about a
caller's sessions are. -/
def countedAs? : Endpoint → Option String
  | startSession => some "/sessions"
  | sendInput _ => some "/sessions/\x7bid\x7d/input"
  | terminate _ => some "/sessions/\x7bid\x7d/terminate"
  | session _ => some "/sessions/\x7bid\x7d"
  | _ => none

/-- Whether an endpoint needs the engine. -/
def needsEngine : Endpoint → Bool
  | health | metrics | welcome => false
  | _ => true

example : find "GET" (Address.ofText "/sessions/stats").path = .endpoint stats := by cbv

example : find "GET" (Address.ofText "/flows/").path = .moved := by cbv

end Endpoint

end UssdFlows
