import UssdFlows.Flow.Basic

/-!
# Metrics

Counts of what the engine and the interface have done.  A metric is a name
with labels; what counts time is counted by the number of its measurements.
-/

namespace UssdFlows

/-- How the handling of an input ended. -/
inductive InputOutcome where
  | error
  | rejected
  | expired
  | reprompt
  | completed
  | advanced
  deriving DecidableEq, Repr

/-- The word for the end of an input. -/
def InputOutcome.text : InputOutcome → String
  | error => "error"
  | rejected => "rejected"
  | expired => "expired"
  | reprompt => "reprompt"
  | completed => "completed"
  | advanced => "advanced"

/-- The changes in the life of a session that are counted. -/
inductive LifeEvent where
  | started
  | completed
  | terminated
  | expired
  deriving DecidableEq, Repr

/-- The word for a change in the life of a session. -/
def LifeEvent.text : LifeEvent → String
  | started => "started"
  | completed => "completed"
  | terminated => "terminated"
  | expired => "expired"

/-- What is counted. -/
inductive Metric where
  | requests (method endpoint status : String)
  | requestTimes (method endpoint : String)
  | inputs (outcome : InputOutcome)
  | inputTimes
  | visits (kind : NodeKind)
  | actions (kind : NodeKind) (succeeded : Bool)
  | actionTimes (kind : NodeKind)
  | activeSessions
  | sessions (change : LifeEvent)
  | validations (isValid : Bool)
  deriving DecidableEq, Repr

namespace Metric

/-- A name with its labels in braces. -/
def labelled (name : String) (labels : List (String × String)) : String :=
  name ++ "\x7b" ++ ",".intercalate (labels.map fun l => l.1 ++ "=" ++ l.2) ++ "\x7d"

/-- The name of a metric with its labels, sorted by their names. -/
def text : Metric → String
  | requests method endpoint status =>
    labelled "ussd_http_requests_total"
      [("endpoint", endpoint), ("method", method), ("status", status)]
  | requestTimes method endpoint =>
    labelled "ussd_http_request_duration_seconds_count" [("endpoint", endpoint), ("method", method)]
  | inputs outcome => labelled "ussd_inputs_processed_total" [("outcome", outcome.text)]
  | inputTimes => labelled "ussd_input_processing_seconds_count" []
  | visits kind => labelled "ussd_node_visits_total" [("kind", kind.text)]
  | actions kind succeeded =>
    labelled "ussd_action_calls_total"
      [("kind", kind.text), ("result", if succeeded then "success" else "failure")]
  | actionTimes kind => labelled "ussd_action_call_duration_seconds_count" [("kind", kind.text)]
  | activeSessions => labelled "ussd_sessions_active" []
  | sessions change => labelled "ussd_sessions_total" [("status", change.text)]
  | validations isValid =>
    labelled "ussd_flow_validations_total" [("result", if isValid then "valid" else "invalid")]

end Metric

/-- A count for every metric that has changed. -/
structure Metrics where
  counts : KeyedList (Prod.fst : Metric × Int → Metric)

namespace Metrics

/-- Nothing was counted. -/
def empty : Metrics := ⟨.empty⟩

/-- The count of a metric. -/
def count (t : Metrics) (m : Metric) : Int := ((t.counts.find? m).map Prod.snd).getD 0

/-- Adds to the count of a metric. -/
def add (t : Metrics) (m : Metric) (n : Int) : Metrics := ⟨t.counts.put (m, t.count m + n)⟩

/-- The counts that are not zero, by name. -/
def nonZero (t : Metrics) : List (String × Int) :=
  (t.counts.items.filter fun e => e.2 ≠ 0).map fun e => (e.1.text, e.2)

/-- Adding changes one count and no other. -/
theorem count_add (t : Metrics) (m : Metric) (n : Int) (k : Metric) :
    (t.add m n).count k = if m = k then t.count k + n else t.count k := by
  unfold count add
  by_cases h : m = k
  · subst h
    simp [count]
  · simp [KeyedList.find?_put, h]

end Metrics

end UssdFlows
