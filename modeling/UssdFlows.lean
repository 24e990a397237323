import UssdFlows.Action.Basic
import UssdFlows.Action.Web
import UssdFlows.Api.Address
import UssdFlows.Api.Answers
import UssdFlows.Api.Endpoint
import UssdFlows.Api.Message
import UssdFlows.Api.Server
import UssdFlows.Data.KeyedList
import UssdFlows.Document.Display
import UssdFlows.Document.Fields
import UssdFlows.Document.Json.Reader
import UssdFlows.Document.Json.Writer
import UssdFlows.Document.Value
import UssdFlows.Document.Yaml.Cursor
import UssdFlows.Document.Yaml.Node
import UssdFlows.Document.Yaml.Reader
import UssdFlows.Document.Yaml.Scalar
import UssdFlows.Document.Yaml.Tag
import UssdFlows.Document.Yaml.Token
import UssdFlows.Engine.Basic
import UssdFlows.Engine.Operations
import UssdFlows.Engine.Task
import UssdFlows.Engine.Turn
import UssdFlows.Event.Basic
import UssdFlows.Event.Sink
import UssdFlows.Files.Path
import UssdFlows.Files.Tree
import UssdFlows.Flow.Adjacency
import UssdFlows.Flow.Basic
import UssdFlows.Flow.Condition
import UssdFlows.Flow.Definition
import UssdFlows.Flow.Loading
import UssdFlows.Flow.Report
import UssdFlows.FlowTool
import UssdFlows.Handler
import UssdFlows.Locks
import UssdFlows.Locks.Visits
import UssdFlows.Log
import UssdFlows.Main
import UssdFlows.Metrics
import UssdFlows.Number.Binary64
import UssdFlows.Number.Decimal
import UssdFlows.Number.Radix
import UssdFlows.Number.Reading
import UssdFlows.Number.Shortest
import UssdFlows.Outcome
import UssdFlows.Pattern.Expr
import UssdFlows.Pattern.Matcher
import UssdFlows.Pattern.Reader
import UssdFlows.Proofs.Engine.Inputs
import UssdFlows.Proofs.Engine.Operations
import UssdFlows.Proofs.Engine.Pieces
import UssdFlows.Proofs.Engine.Programs
import UssdFlows.Proofs.Engine.Smooth
import UssdFlows.Proofs.Engine.Sound
import UssdFlows.Proofs.Engine.Stages
import UssdFlows.Proofs.Engine.Turns
import UssdFlows.Proofs.Flow.Cycles
import UssdFlows.Proofs.Flow.Verdict
import UssdFlows.Proofs.Flow.Descents
import UssdFlows.Proofs.Flow.Distances
import UssdFlows.Proofs.Flow.Settling
import UssdFlows.Proofs.Interpretation
import UssdFlows.Proofs.Registry.History
import UssdFlows.Proofs.Service.Certified
import UssdFlows.Proofs.Service.Phases
import UssdFlows.Proofs.Service.Runs
import UssdFlows.Registry
import UssdFlows.Screen
import UssdFlows.Session
import UssdFlows.SessionStore
import UssdFlows.Settings.Assignments
import UssdFlows.Settings.Basic
import UssdFlows.Text.Blank
import UssdFlows.Text.Digit
import UssdFlows.Text.LetterCase
import UssdFlows.Text.Percent
import UssdFlows.Text.Printable
import UssdFlows.Text.Ranges
import UssdFlows.Text.Word
import UssdFlows.Time.Calendar
import UssdFlows.Time.Instant
import UssdFlows.Proofs.Engine.Departures
import UssdFlows.Proofs.Service.Answered
import UssdFlows.Proofs.Service.Charges
import UssdFlows.Proofs.Engine.Confined
import UssdFlows.Proofs.Locks.Lines
import UssdFlows.Proofs.Service.Moves
import UssdFlows.Proofs.Service.Sections
import UssdFlows.Proofs.Service.Trails
import UssdFlows.Proofs.Service.Bounds
import UssdFlows.Proofs.Service.Mirrors
import UssdFlows.Proofs.Service.Serial
import UssdFlows.Proofs.Service.Endings
import UssdFlows.Proofs.Engine.Waning
import UssdFlows.Proofs.Engine.Tidy
import UssdFlows.Proofs.Service.Callers
import UssdFlows.Proofs.Engine.Sinks
import UssdFlows.Proofs.Service.Deeds
import UssdFlows.Proofs.Service.Accounts
import UssdFlows.Proofs.Service.Finality
import UssdFlows.Proofs.Service.Records
import UssdFlows.Proofs.Engine.Tales
import UssdFlows.Proofs.Service.Tales
import UssdFlows.Proofs.Service.Closings
import UssdFlows.Proofs.Service.Stories
import UssdFlows.Proofs.Flow.Reload
import UssdFlows.Proofs.Api.Served
import UssdFlows.Proofs.Service.Exits
import UssdFlows.Proofs.Engine.Writes
import UssdFlows.Proofs.Service.Independence
import UssdFlows.Proofs.Service.Audiences
import UssdFlows.Proofs.Service.Settlements
import UssdFlows.Proofs.Engine.Sweeps
import UssdFlows.Proofs.Service.Lifetimes
import UssdFlows.Proofs.Service.Frames
import UssdFlows.Proofs.Engine.Calls
import UssdFlows.Proofs.Service.ActionCalls
import UssdFlows.Proofs.Flow.Removal
import UssdFlows.Proofs.Document.Readings
import UssdFlows.Proofs.Flow.Choices
import UssdFlows.Proofs.Service.Screens
import UssdFlows.Proofs.Document.Numerals
import UssdFlows.Proofs.Document.Tokens
import UssdFlows.Proofs.Document.Faults
import UssdFlows.Proofs.Flow.Raises
import UssdFlows.Proofs.Flow.Loads
import UssdFlows.Proofs.Screen.Placeholders
import UssdFlows.Proofs.Number.Values
import UssdFlows.Proofs.Number.Nearest
import UssdFlows.Proofs.Flow.Comparisons
import UssdFlows.Proofs.Engine.Words
import UssdFlows.Proofs.Service.Statuses
import UssdFlows.Proofs.Locks.Passages
import UssdFlows.Proofs.Flow.Spellings
import UssdFlows.Proofs.Api.Counts
import UssdFlows.Proofs.Api.Runs
import UssdFlows.Proofs.Api.Truths
import UssdFlows.Proofs.Service.Leftovers
import UssdFlows.Proofs.Service.Tracks
