import UssdFlows.Api.Answers

/-!
# The server

The server finds the endpoint for a request, lets it be read and served, and
adds what browsers want to know: whether a page of another origin may see the
answer.

`Server.handle` is the whole interface as one function on the server's state.
A request that finds no endpoint leaves the server as it is.
-/

namespace UssdFlows

/-- The engine with what stands around it. -/
structure Server where
  engine : Engine
  surroundings : Surroundings
  /-- The origins whose pages may see answers; a star stands for all. -/
  origins : List String

/-- What a client gets from the server. -/
structure Delivery where
  status : Nat
  body : Body
  /-- The origin whose pages may see it. -/
  origin : Option String

namespace Server

/-- Whether pages of an origin may see answers. -/
def allows (s : Server) (origin : String) : Bool :=
  s.origins.contains "*" || s.origins.contains origin

/-- The methods that pages of other origins may use. -/
def openMethods : List String := ["DELETE", "GET", "HEAD", "OPTIONS", "PATCH", "POST", "PUT"]

/-- The answer to a browser that asks whether a page may send a request. -/
def preflight (s : Server) (origin method : String) : Response :=
  let failures := (if s.allows origin then [] else ["origin"]) ++
    (if openMethods.contains method then [] else ["method"])
  if failures.isEmpty then ⟨200, .text "OK", false⟩
  else ⟨400, .text ("Disallowed CORS " ++ ", ".intercalate failures), false⟩

/-- Answers a request. -/
def respond [Libraries] (s : Server) (r : Request) : Response × Server :=
  match Endpoint.find r.method r.address.path with
  | .nowhere => (.refusedText 404 "Not Found", s)
  | .otherMethod => (.refusedText 405 "Method Not Allowed", s)
  | .moved => (.moved, s)
  | .endpoint x =>
    match x.work s.surroundings r with
    | .error response => (response, s)
    | .ok work =>
      let (response, engine) := x.serve work s.engine
      (response, { s with engine })

/-- What a browser is told about an answer: nothing if the work broke off. -/
def deliver (s : Server) (r : Request) (response : Response) : Delivery where
  status := response.status
  body := if r.method = "HEAD" then .text "" else response.body
  origin := if response.isBroken then none else (r.header? "origin").filter s.allows

/-- Handles a request. -/
def handle [Libraries] (s : Server) (r : Request) : Delivery × Server :=
  match r.method, r.header? "origin", r.header? "access-control-request-method" with
  | "OPTIONS", some origin, some method => (s.deliver r (s.preflight origin method), s)
  | _, _, _ =>
    let (response, s') := s.respond r
    (s.deliver r response.sent, s')

end Server

end UssdFlows
