import UssdFlows.Locks

/-!
# Visits

A visit is a task that asks for the section of a key, stays inside until it is
told to leave, and may be cancelled at any time.  A hall is the locks together
with the visits of all tasks; a move starts, ends or cancels a visit, or
discards a lock.

After each move everybody goes in who may, and out again if told to leave
while waiting.
-/

namespace UssdFlows

/-- Where a visit stands. -/
inductive VisitState where
  | waiting
  | inside
  | left
  | cancelled
  deriving DecidableEq, Repr

/-- The word for the state of a visit. -/
def VisitState.text : VisitState → String
  | waiting => "waiting"
  | inside => "held"
  | left => "released"
  | cancelled => "cancelled"

/-- A task that visits the section of a key. -/
structure Visit where
  name : String
  key : String
  visitor : Visitor
  /-- The number of the lock object that was checked out. -/
  lock : Nat
  /-- Whether the task is to leave as soon as it is inside. -/
  isLeaving : Bool
  state : VisitState
  deriving DecidableEq, Repr

/-- Whether a visit still uses its lock. -/
def Visit.isOpen (v : Visit) : Bool := v.state == .waiting || v.state == .inside

/-- The locks and the visits of all tasks, in the order in which they started. -/
structure Hall where
  locks : Locks
  visits : List Visit

/-- What may happen in a hall. -/
inductive HallMove where
  | hold (name key : String)
  | release (name : String)
  | cancel (name : String)
  | discard (key : String)
  deriving DecidableEq, Repr

namespace Hall

/-- No locks and no visits. -/
def empty : Hall := ⟨.empty, []⟩

/-- A visitor gives up its place, inside or in the queue, and its use of the lock. -/
def withdraw (v : Visit) (t : Locks) : Locks := (t.leave v.lock v.visitor).checkIn v.key

/-- A task asks for the section of a key. -/
def hold (h : Hall) (name key : String) : Hall :=
  let visitor := h.visits.length + 1
  let (lock, locks) := h.locks.checkOut key
  ⟨locks.enter lock visitor, h.visits ++ [⟨name, key, visitor, lock, false, .waiting⟩]⟩

/-- Changes the visits with a name. -/
def onVisit (h : Hall) (name : String) (change : Visit → Visit) : Hall :=
  { h with visits := h.visits.map fun v => if v.name = name then change v else v }

/-- Cancels the visits of a task that are not over. -/
def cancel (h : Hall) (name : String) : Hall :=
  let hit := h.visits.filter fun v => v.name = name && v.isOpen
  { h.onVisit name fun v => if v.isOpen then { v with state := .cancelled } else v with
    locks := hit.foldl (fun t v => withdraw v t) h.locks }

/-- A visitor goes in if it may, and out again if it is to leave. -/
def settleVisit (t : Locks) (v : Visit) : Visit × Locks :=
  let v := if v.state == .waiting && t.isInside v.lock v.visitor then
    { v with state := .inside } else v
  if v.state == .inside && v.isLeaving then ({ v with state := .left }, withdraw v t) else (v, t)

/-- Everybody once goes in or out who may. -/
def settleEach : List Visit → Locks → List Visit × Locks
  | [], t => ([], t)
  | v :: rest, t =>
    let (v, t) := settleVisit t v
    let (rest, t) := settleEach rest t
    (v :: rest, t)

/-- Lets everybody go in or out who may, so many times over. -/
def settle : (rounds : Nat) → Hall → Hall
  | 0, h => h
  | rounds + 1, h =>
    let (visits, locks) := settleEach h.visits h.locks
    settle rounds ⟨locks, visits⟩

/-- What a move does before anybody reacts to it. -/
def react (h : Hall) : HallMove → Hall
  | .hold name key => h.hold name key
  | .release name => h.onVisit name fun v => { v with isLeaving := true }
  | .cancel name => h.cancel name
  | .discard key => { h with locks := h.locks.discard key }

/-- Makes a move.  Each round lets at least one more visitor go, so as many
rounds as there are visits suffice. -/
def move (h : Hall) (m : HallMove) : Hall :=
  let h := h.react m
  settle (h.visits.length + 1) h

end Hall

end UssdFlows
