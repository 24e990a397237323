import UssdFlows.Data.KeyedList

/-!
# Locks

A lock keeps a section to one visitor at a time.  Locks are made on first use
and found by key; a lock object has a number of its own, so that it can be told
from a later one under the same key.

A visitor checks the lock out (which counts it as a user of the key), enters
if nobody is inside and nobody waits, and otherwise queues; leaving lets the
first in the queue enter.  Checking in uncounts the visitor.  A key without
users can be discarded; one with users stays, so that all visitors of a key
meet at one lock object.
-/

namespace UssdFlows

/-- A visitor of locked sections. -/
abbrev Visitor := Nat

/-- A lock object. -/
structure Lock where
  /-- Who is inside. -/
  holder : Option Visitor
  /-- Who waits, first come first. -/
  queue : List Visitor
  deriving DecidableEq, Repr

namespace Lock

/-- A lock that nobody has used. -/
def fresh : Lock := ⟨none, []⟩

/-- Lets a visitor in if nobody is inside and nobody waits, and has it queue
otherwise. -/
def enter (l : Lock) (v : Visitor) : Lock :=
  if l.holder.isNone && l.queue.isEmpty then { l with holder := some v }
  else { l with queue := l.queue ++ [v] }

/-- Lets the first in the queue in, if there is one. -/
def handOver (l : Lock) : Lock :=
  match l.queue with
  | [] => { l with holder := none }
  | v :: rest => ⟨some v, rest⟩

/-- The visitor goes: from inside, which hands the lock over, or from the queue. -/
def leave (l : Lock) (v : Visitor) : Lock :=
  if l.holder = some v then l.handOver else { l with queue := l.queue.filter (· ≠ v) }

end Lock

/-- All locks. -/
structure Locks where
  /-- Every lock object that was made, by its number. -/
  objects : List Lock
  /-- The number of the lock object of each key. -/
  table : Dict Nat
  /-- How many visitors use each key; none are not listed. -/
  users : Dict Nat

namespace Locks

/-- No locks. -/
def empty : Locks := ⟨[], .empty, .empty⟩

/-- The number of the lock object of a key. -/
def number? (t : Locks) (key : String) : Option Nat := (t.table.find? key).map Prod.snd

/-- A lock object. -/
def object (t : Locks) (number : Nat) : Lock := t.objects.getD number .fresh

/-- How many visitors use a key. -/
def userCount (t : Locks) (key : String) : Nat := ((t.users.find? key).map Prod.snd).getD 0

/-- The keys that have a lock. -/
def keys (t : Locks) : List String := t.table.keys

/-- The number of locks that are kept. -/
def size (t : Locks) : Nat := t.table.size

/-- The lock object that a visitor of a key meets, made if there is none. -/
def provide (t : Locks) (key : String) : Nat × Locks :=
  match t.number? key with
  | some n => (n, t)
  | none =>
    let n := t.objects.length
    (n, { t with objects := t.objects ++ [.fresh], table := t.table.put (key, n) })

/-- Sets how many visitors use a key. -/
def withUserCount (t : Locks) (key : String) (n : Nat) : Locks :=
  { t with users := if n = 0 then t.users.erase key else t.users.put (key, n) }

/-- Counts a user of a key and gives it the lock object. -/
def checkOut (t : Locks) (key : String) : Nat × Locks :=
  let (n, t) := t.provide key
  (n, t.withUserCount key (t.userCount key + 1))

/-- Uncounts a user of a key. -/
def checkIn (t : Locks) (key : String) : Locks := t.withUserCount key (t.userCount key - 1)

/-- Changes a lock object. -/
def onObject (t : Locks) (number : Nat) (change : Lock → Lock) : Locks :=
  { t with objects := t.objects.modify number change }

/-- A visitor asks to enter. -/
def enter (t : Locks) (number : Nat) (v : Visitor) : Locks := t.onObject number (·.enter v)

/-- A visitor leaves, from inside or from the queue. -/
def leave (t : Locks) (number : Nat) (v : Visitor) : Locks := t.onObject number (·.leave v)

/-- Whether a visitor is inside. -/
def isInside (t : Locks) (number : Nat) (v : Visitor) : Bool := (t.object number).holder == some v

/-- Whether the section of a key is being visited. -/
def isLocked (t : Locks) (key : String) : Bool :=
  (t.number? key).any fun n => (t.object n).holder.isSome

/-- Forgets the lock of a key, unless somebody uses it. -/
def discard (t : Locks) (key : String) : Locks :=
  if t.userCount key = 0 then { t with table := t.table.erase key } else t

/-! ## Laws -/

/-- A key in use keeps its lock. -/
theorem discard_of_used {t : Locks} {key : String} (h : t.userCount key ≠ 0) :
    t.discard key = t := if_neg h

/-- A discarded key without users has no lock. -/
theorem number?_discard {t : Locks} {key : String} (h : t.userCount key = 0) :
    (t.discard key).number? key = none := by
  simp [discard, h, number?, KeyedList.find?_erase]

theorem userCount_withUserCount (t : Locks) (key : String) (n : Nat) (j : String) :
    (t.withUserCount key n).userCount j = if key = j then n else t.userCount j := by
  unfold withUserCount userCount
  by_cases hn : n = 0
  · subst hn
    by_cases h : j = key
    · simp [KeyedList.find?_erase, h]
    · simp [KeyedList.find?_erase, h, Ne.symm h]
  · by_cases h : key = j
    · simp [hn, h]
    · simp [hn, KeyedList.find?_put, h]

theorem userCount_provide (t : Locks) (key j : String) :
    (t.provide key).2.userCount j = t.userCount j := by
  unfold provide
  split <;> rfl

/-- Checking out counts one more user of the key and of no other. -/
theorem userCount_checkOut (t : Locks) (key j : String) :
    (t.checkOut key).2.userCount j = if key = j then t.userCount j + 1 else t.userCount j := by
  simp only [checkOut, userCount_withUserCount, userCount_provide]
  by_cases h : key = j <;> simp [h]

/-- Checking in uncounts one user of the key and of no other. -/
theorem userCount_checkIn (t : Locks) (key j : String) :
    (t.checkIn key).userCount j = if key = j then t.userCount j - 1 else t.userCount j := by
  simp only [checkIn, userCount_withUserCount]
  by_cases h : key = j <;> simp [h]

end Locks

end UssdFlows
