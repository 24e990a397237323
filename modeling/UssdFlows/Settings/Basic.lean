import UssdFlows.Document.Fields
import UssdFlows.Settings.Assignments
import UssdFlows.Text.LetterCase

/-!
# Settings

How long sessions live, how long they are kept, how actions are called and
what is logged.  A setting is given by name, or in the environment under its
name behind `USSD_`, or in a file of assignments, or else has a value of its
own; the first of these that gives it counts.
-/

namespace UssdFlows

/-- How serious a line of the log is. -/
inductive LogLevel where
  | debug
  | info
  | warning
  | error
  | critical
  deriving DecidableEq, Repr

namespace LogLevel

/-- The levels, the least serious first. -/
def all : List LogLevel := [debug, info, warning, error, critical]

/-- The word for a level. -/
def text : LogLevel → String
  | debug => "DEBUG"
  | info => "INFO"
  | warning => "WARNING"
  | error => "ERROR"
  | critical => "CRITICAL"

/-- The number of a level. -/
def number : LogLevel → Nat
  | debug => 10
  | info => 20
  | warning => 30
  | error => 40
  | critical => 50

/-- The level that a word in capitals names. -/
def ofText? (s : String) : Option LogLevel := all.find? fun l => l.text == s

end LogLevel

/-- How lines of the log are written. -/
inductive LogFormat where
  | console
  | json
  deriving DecidableEq, Repr

/-- The word for a log format. -/
def LogFormat.text : LogFormat → String
  | console => "console"
  | json => "json"

/-- The log format that a word names. -/
def LogFormat.ofText? (s : String) : Option LogFormat := [console, json].find? fun f => f.text == s

/-- What can be set. -/
structure Settings where
  /-- Seconds after which an idle session expires. -/
  sessionTimeout : Int
  sweepInterval : Binary64
  /-- Seconds for which a finished session is kept. -/
  sessionRetention : Int
  actionTimeout : Binary64
  maxPromptLength : Int
  webhook : Option String
  flowsDirectory : Option String
  logLevel : LogLevel
  logFormat : LogFormat
  timeout_pos : 0 < sessionTimeout
  retention_pos : 0 < sessionRetention
  deriving DecidableEq, Repr

namespace Settings

/-- The settings if nothing is set. -/
def standard : Settings where
  sessionTimeout := 1800
  sweepInterval := .ofInt 60
  sessionRetention := 3600
  actionTimeout := .ofInt 5
  maxPromptLength := 182
  webhook := none
  flowsDirectory := none
  logLevel := .info
  logFormat := .console
  timeout_pos := by decide
  retention_pos := by decide

/-- Reads a log level, in any case and with blanks around it. -/
def readLogLevel (v : Value) : Checked LogLevel :=
  v.readText.andThen fun s =>
    match LogLevel.ofText? (Text.upper (Text.strip s)) with
    | some l => .ok l
    | none => .fail (.refused ("Log level '" ++ s ++ "' not supported"))

/-- Reads a whole number above zero. -/
def readPositive (v : Value) : Checked { n : Int // 0 < n } := Checked.above 0 v.readWhole

/-- Reads settings from the members of a record. -/
def ofMembers (members : List (Value × Value)) : Checked Settings :=
  let optional := fun {α} field (absent : α) (read : Value → Checked α) =>
    Naming.plain.optional members field absent read
  (fun timeout sweep retention action prompt webhook flows level format =>
      ⟨timeout.val, sweep, retention.val, action, prompt, webhook, flows, level, format,
        timeout.property, retention.property⟩)
    <$> optional "session_timeout_seconds" ⟨standard.sessionTimeout, by decide⟩ readPositive
    <*> optional "sweep_interval_seconds" standard.sweepInterval (fun v => v.readReal.aboveZero)
    <*> optional "session_retention_seconds" ⟨standard.sessionRetention, by decide⟩ readPositive
    <*> optional "action_timeout_seconds" standard.actionTimeout (fun v => v.readReal.aboveZero)
    <*> optional "max_prompt_length" standard.maxPromptLength
      (fun v => Subtype.val <$> readPositive v)
    <*> optional "action_webhook_url" none (Value.readNullable Value.readText)
    <*> optional "flows_dir" none (Value.readNullable Value.readText)
    <*> optional "log_level" .info readLogLevel
    <*> optional "log_format" .console (Value.readMember LogFormat.ofText?)

/-- The names of the settings. -/
def names : List String :=
  ["session_timeout_seconds", "sweep_interval_seconds", "session_retention_seconds",
    "action_timeout_seconds", "max_prompt_length", "action_webhook_url", "flows_dir", "log_level",
    "log_format"]

/-- The value of a setting among assignments, whose names may be in any case:
the last one that is not empty. -/
def assigned? (assignments : List Assignments.Assignment) (name : String) : Option String :=
  (assignments.reverse.find? fun a => Text.lower a.1 == "ussd_" ++ name && a.2 != some "").bind Prod.snd

/-- The members that settings are read from: those given by name, and of the
others those in the environment or else in the file. -/
def merged (given : List (Value × Value)) (environment file : List Assignments.Assignment) :
    List (Value × Value) :=
  given ++ names.filterMap fun name =>
    ((assigned? environment name).or (assigned? file name)).map fun s =>
      (.text name, .text s)

/-- Reads settings given by name, in the environment, and in a file of
assignments. -/
def read (given : List (Value × Value)) (environment : List (String × String)) (file : String) :
    Checked Settings :=
  let environment := environment.map fun e => (e.1, some e.2)
  let outside (n : String) : Option String := (environment.lookup n).bind id
  ofMembers (merged given environment (Assignments.resolve outside [] (Assignments.read file)))

end Settings

/-- Settings as a document. -/
def Settings.document (s : Settings) : Value :=
  .object [("session_timeout_seconds", .int s.sessionTimeout),
    ("sweep_interval_seconds", .real s.sweepInterval),
    ("session_retention_seconds", .int s.sessionRetention),
    ("action_timeout_seconds", .real s.actionTimeout),
    ("max_prompt_length", .int s.maxPromptLength),
    ("action_webhook_url", .ofOption s.webhook), ("flows_dir", .ofOption s.flowsDirectory),
    ("log_level", .text s.logLevel.text), ("log_format", .text s.logFormat.text)]

end UssdFlows
