import UssdFlows.Event.Basic

/-!
# Event sinks

A sink is where events go: a memory that may be bounded, a log, a sink that
fails at some events, or several sinks at once.

A sink that is handed an event may fail (`emit`), but publishing an event never
does (`publish`): the failure is not passed on, and the members of a compound
sink do not depend on each other (`publish_all`).
-/

namespace UssdFlows

/-- An event that arrives at a sink. -/
structure Arrival where
  /-- What the sink was handed before. -/
  earlier : List Event
  event : Event

/-- Where events go. -/
inductive Sink where
  /-- Keeps events, the latest ones if there is a limit. -/
  | memory (limit : Option Int) (kept : List Event)
  /-- Writes every event down. -/
  | log (written : List Event)
  /-- Knows what it was handed, and fails at some of it. -/
  | failing (fails : Arrival → Bool) (handed : List Event)
  /-- Hands every event to each of its members. -/
  | all (members : List Sink)

namespace Sink

/-- The last events of a list, as many as a limit allows. -/
def latest (limit : Option Int) (xs : List Event) : List Event :=
  match limit with
  | none => xs
  | some n => xs.drop (xs.length - n.toNat)

mutual

/-- Hands an event to a sink: the sink after that, and whether it has failed. -/
def emit (e : Event) : Sink → Sink × Bool
  | memory limit kept => (memory limit (latest limit (kept ++ [e])), false)
  | log written => (log (written ++ [e]), false)
  | failing fails handed => (failing fails (handed ++ [e]), fails ⟨handed, e⟩)
  | all members => (all (publishEach e members), false)

/-- Publishes an event to each sink of a list. -/
def publishEach (e : Event) : List Sink → List Sink
  | [] => []
  | s :: rest => (emit e s).1 :: publishEach e rest

end

/-- Delivers an event.  Nobody learns whether the sink has failed. -/
def publish (s : Sink) (e : Event) : Sink := (emit e s).1

mutual

/-- The events that the first memory of a sink keeps, if it has a memory. -/
def kept? : Sink → Option (List Event)
  | memory _ kept => some kept
  | all members => keptOf? members
  | _ => none

/-- The events that the first memory of some sinks keeps. -/
def keptOf? : List Sink → Option (List Event)
  | [] => none
  | s :: rest => (kept? s).or (keptOf? rest)

end

mutual

/-- The sink with its memories emptied. -/
def cleared : Sink → Sink
  | memory limit _ => memory limit []
  | all members => all (clearedEach members)
  | s => s

/-- The sinks with their memories emptied. -/
def clearedEach : List Sink → List Sink
  | [] => []
  | s :: rest => cleared s :: clearedEach rest

end

/-- The events of a kind and of a session, as far as these are given. -/
def select (type : Option EventType) (sessionId : Option String) (xs : List Event) : List Event :=
  xs.filter fun e => type.all (· == e.type) && sessionId.all (· == e.sessionId)

/-! ## Laws -/

theorem publishEach_eq_map (e : Event) (members : List Sink) :
    publishEach e members = members.map fun s => s.publish e := by
  induction members with
  | nil => simp [publishEach]
  | cons s rest ih => simp [publishEach, publish, ih]

/-- Each member of a compound sink gets the event, whatever the others do. -/
theorem publish_all (e : Event) (members : List Sink) :
    (all members).publish e = all (members.map fun s => s.publish e) := by
  simp [publish, emit, publishEach_eq_map]

/-- A memory without limit keeps every event. -/
theorem publish_memory (e : Event) (kept : List Event) :
    (memory none kept).publish e = memory none (kept ++ [e]) := by
  simp [publish, emit, latest]

end Sink

end UssdFlows
