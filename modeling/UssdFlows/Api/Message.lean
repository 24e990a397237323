import UssdFlows.Api.Address
import UssdFlows.Document.Fields
import UssdFlows.Document.Libraries

/-!
# Messages

A request has a method, an address, headers and a body; a response has a status
and a body.  The body of a request is JSON, and what is wrong with it is told
by the problems of its parts, or, where no part can be named, in one sentence.
-/

namespace UssdFlows

/-- What a client sends. -/
structure Request where
  method : String
  address : Address
  headers : List (String × String)
  /-- Empty if there is none. -/
  body : String

/-- The value of a header, whose name may be in any case. -/
def Request.header? (r : Request) (name : String) : Option String :=
  (r.headers.find? fun h => h.1.toLower == name.toLower).map Prod.snd

mutual

/-- Whether a value can be sent: its numbers are finite, none of them has too
many digits to be shown, and its texts can be encoded. -/
def Value.isSendable : Value → Bool
  | .int n => Number.isShowable n
  | .real x => x.isFinite
  | .unpaired _ => false
  | .list items => Value.areSendable items
  | .record members => Value.membersSendable members
  | _ => true

/-- Whether all items of a list can be sent. -/
def Value.areSendable : List Value → Bool
  | [] => true
  | v :: rest => v.isSendable && Value.areSendable rest

/-- Whether the values of all members of a record can be sent. -/
def Value.membersSendable : List (Value × Value) → Bool
  | [] => true
  | (_, v) :: rest => v.isSendable && Value.membersSendable rest

end

/-- The body of a response. -/
inductive Body where
  | document (v : Value)
  | text (s : String)

/-- What a client gets. -/
structure Response where
  status : Nat
  body : Body
  /-- Whether the work on the request broke off. -/
  isBroken : Bool

namespace Response

/-- A document, if all went well. -/
def ok (v : Value) : Response := ⟨200, .document v, false⟩

/-- A refusal with details. -/
def refused (status : Nat) (details : Value) : Response :=
  ⟨status, .document (.object [("detail", details)]), false⟩

/-- A refusal with a sentence. -/
def refusedText (status : Nat) (s : String) : Response := refused status (.text s)

/-- A refusal because of what is wrong with the request. -/
def invalid (problems : List Problem) : Response :=
  refused 422 (.list (problems.map Problem.document))

/-- The answer to a request on which the work broke off. -/
def broken : Response := ⟨500, .text "Internal Server Error", true⟩

/-- The answer to a request whose path has slashes too many at its end. -/
def moved : Response := ⟨307, .text "", false⟩

/-- The response as it is sent: one whose document cannot be sent breaks off. -/
def sent (r : Response) : Response :=
  match r.body with
  | .document v => if v.isSendable then r else broken
  | .text _ => r

end Response

/-! ## Bodies of requests -/

namespace Request

variable {α : Type}

/-- The value in a body, if there is a body.  A mark of the byte order may stand
in front of it. -/
def content [Libraries] (r : Request) : Except Response (Option Value) :=
  let text := if r.body.toList.head? = some '\uFEFF' then String.ofList (r.body.toList.drop 1)
    else r.body
  if r.body = "" then .ok none
  else match Libraries.json text with
    | .ok v => .ok (some v)
    | .error failure =>
      if failure.fault.isGrammar then
        .error (.invalid [⟨[.name "body", .index failure.position], .notJson⟩])
      else .error (.refusedText 400 "There was an error parsing the body")

/-- Reads a body with a reader of its value. -/
def readContent [Libraries] (r : Request) (read : Option Value → Checked α) : Except Response α :=
  match r.content with
  | .error response => .error response
  | .ok v => match Checked.inside (.name "body") (read v) with
    | .ok a => .ok a
    | .bad problems => .error (.invalid problems)

/-- Reads a body that must be there. -/
def readBody [Libraries] (r : Request) (read : Value → Checked α) : Except Response α :=
  r.readContent fun
    | some v => read v
    | none => .fail .missing

/-- Reads the text under a name in the record that is the body. -/
def readTextField (members : List (Value × Value)) (name : String) : Checked String :=
  Naming.plain.required members name Value.readText

end Request

end UssdFlows
