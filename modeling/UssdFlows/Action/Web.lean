import UssdFlows.Action.Basic
import UssdFlows.Document.Json.Reader
import UssdFlows.Flow.Definition

/-!
# Actions over the web

An executor that asks a web service: api nodes their own address if they have
one, all other nodes a common one.  An answer with a status of two hundred and
something is a success, and the record in its body is the data.
-/

namespace UssdFlows

/-- A request to a web service. -/
structure WebRequest where
  method : Method
  url : String
  body : Option Value

/-- How a web service answers. -/
inductive WebReply where
  | response (status : Nat) (body : String)
  | failed (message : String)
  /-- The address cannot be used at all. -/
  | badAddress (message : String)

namespace WebRequest

/-- The address with its query replaced. -/
def withQuery (url query : String) : String :=
  let (address, fragment) := url.toList.span (· ≠ '#')
  String.ofList (address.takeWhile (· ≠ '?')) ++ "?" ++ query ++ String.ofList fragment

/-- The address that a node asks, if there is one that is not empty. -/
def address? (common : Option String) (n : Node) : Option String :=
  let own := match n.behaviour with
    | .api _ url _ => url.filter (· ≠ "")
    | _ => none
  (own.or common).filter (· ≠ "")

/-- What is sent about a node and a session. -/
def payload (n : Node) (s : Session) : Value :=
  .object ([("kind", .text n.kind.text), ("node_id", .text n.id), ("session_id", .text s.id),
    ("flow_id", .text s.flowId), ("phone_number", .text s.phoneNumber),
    ("variables", s.bindings.textRecord)] ++ Executor.charge n)

/-- The request that is made for an action, if there is an address. -/
def ofAction? (common : Option String) (r : ActionRequest) : Option WebRequest :=
  (address? common r.node).map fun url =>
    let method := match r.node.behaviour with
      | .api _ _ method => method
      | _ => .post
    if method = .get then ⟨.get, withQuery url ("session_id=" ++ r.session.id), none⟩
    else ⟨method, url, some (payload r.node r.session)⟩

end WebRequest

namespace WebReply

/-- The data in the body of an answer: a record as it is, nothing for another
value, and the body as text if it cannot be read. -/
def data (body : String) : List (String × Value) :=
  let text := if body.toList.head? = some '\uFEFF' then String.ofList (body.toList.drop 1) else body
  match Json.read text with
  | .ok (.record members) => members.map fun m => (m.1.display, m.2)
  | .ok _ => []
  | .error _ => [("body", .text body)]

/-- What an answer says about the action. -/
def answer : WebReply → ActionAnswer
  | response status body =>
    .result <| if 200 ≤ status && status < 300 then ⟨true, data body, none⟩
      else .failed ("HTTP " ++ Number.natText status)
  | failed message => .result (.failed message)
  | badAddress message => .raised message

end WebReply

/-- Asks web services, which give prepared replies one after another. -/
def Executor.web (common : Option String) (replies : List WebReply) : Executor where
  answer earlier request :=
    match WebRequest.ofAction? common request with
    | none =>
      .result (.failed ("No endpoint configured for node '" ++ request.node.id ++ "'"))
    | some _ =>
      let count := (earlier.filterMap (WebRequest.ofAction? common)).length
      (replies.getD count (.failed "the service cannot be reached")).answer

/-- A request as a document. -/
def WebRequest.document (r : WebRequest) : Value :=
  .object [("method", .text r.method.text), ("url", .text r.url), ("json", r.body.getD .null)]

end UssdFlows
