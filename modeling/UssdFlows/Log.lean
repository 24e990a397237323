import UssdFlows.Settings.Basic

/-!
# The log

A line of the log tells what happened, how serious it is, who tells it, and
details.  The log is set to a threshold, and lines below it are not written.

A threshold is named by a level, by one of two other words for a level, or by
the word for no threshold at all.
-/

namespace UssdFlows

/-- A line of the log. -/
structure LogLine where
  level : LogLevel
  logger : String
  event : String
  context : List (String × Value)

/-- What the log is set to. -/
structure Log where
  /-- Lines whose level has a lower number are not written. -/
  threshold : Nat
  format : LogFormat
  deriving DecidableEq, Repr

namespace Log

/-- The thresholds that have a word of their own besides the levels. -/
def otherWords : List (String × Nat) := [("WARN", 30), ("FATAL", 50), ("NOTSET", 0)]

/-- The threshold that a word in capitals names. -/
def threshold? (word : String) : Option Nat :=
  ((LogLevel.ofText? word).map LogLevel.number).or (otherWords.lookup word)

/-- The loggers of the web server and the web client never write lines below
this level. -/
def quietThreshold : Nat := LogLevel.warning.number

/-- Sets the log to a threshold given by a word in any case; the word in
capitals is returned if it names none. -/
def configure (word : String) (format : LogFormat) : Except String Log :=
  let word := Text.upper word
  match threshold? word with
  | some threshold => .ok ⟨threshold, format⟩
  | none => .error word

/-- The wording for a word that names no threshold. -/
def unknownText (word : String) : String := "Unknown level: " ++ Value.quoted word

/-- Whether a line is written. -/
def admits (l : Log) (line : LogLine) : Bool := l.threshold ≤ line.level.number

/-- The lines that are written. -/
def written (l : Log) (lines : List LogLine) : List LogLine := lines.filter l.admits

end Log

/-- A line as a document, without the time at which it was written.  What
every line has wins over details of the same name. -/
def LogLine.document (line : LogLine) : Value :=
  .record (([("event", Value.text line.event), ("level", .text (Text.lower line.level.text)),
    ("logger", .text line.logger)] : List (String × Value)).foldl
    (fun members m => Value.putMember members (.text m.1) m.2)
    (line.context.map fun m => (Value.text m.1, m.2)))

end UssdFlows
