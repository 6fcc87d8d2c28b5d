import ShortMessage.Alphabet
import ShortMessage.Archive
import ShortMessage.Binary64
import ShortMessage.Binary64.Shortest
import ShortMessage.Calendar
import ShortMessage.Card
import ShortMessage.Card.Memory
import ShortMessage.Card.Place
import ShortMessage.Card.Record
import ShortMessage.Card.Table
import ShortMessage.Card.TableText
import ShortMessage.CommandLine.Arguments
import ShortMessage.CommandLine.Run
import ShortMessage.Dispatcher.Receive
import ShortMessage.Dispatcher.Report
import ShortMessage.Dispatcher.Send
import ShortMessage.Dispatcher.State
import ShortMessage.Dispatcher.Storage
import ShortMessage.Failure
import ShortMessage.Fallback
import ShortMessage.Json
import ShortMessage.Json.Form
import ShortMessage.Json.Message
import ShortMessage.Json.Settings
import ShortMessage.Json.Storage
import ShortMessage.Main
import ShortMessage.Message
import ShortMessage.MessageId.Text
import ShortMessage.Meter
import ShortMessage.Octets
import ShortMessage.Proofs.Alphabet
import ShortMessage.Proofs.Alphabet.Spelling
import ShortMessage.Proofs.Calendar
import ShortMessage.Proofs.Card.Backends
import ShortMessage.Proofs.Card.Batch
import ShortMessage.Proofs.Card.Contents
import ShortMessage.Proofs.Card.Disguise
import ShortMessage.Proofs.Card.Fresh
import ShortMessage.Proofs.Card.Rows
import ShortMessage.Proofs.Card.Sessions
import ShortMessage.Proofs.Card.Sizes
import ShortMessage.Proofs.Card.Slots
import ShortMessage.Proofs.CommandLine.Parts
import ShortMessage.Proofs.CommandLine.Records
import ShortMessage.Proofs.Dispatcher.Answers
import ShortMessage.Proofs.Dispatcher.Archived
import ShortMessage.Proofs.Dispatcher.Attempts
import ShortMessage.Proofs.Dispatcher.Coherence
import ShortMessage.Proofs.Dispatcher.Content
import ShortMessage.Proofs.Dispatcher.Counters
import ShortMessage.Proofs.Dispatcher.Decision
import ShortMessage.Proofs.Dispatcher.Entries
import ShortMessage.Proofs.Dispatcher.HandOver
import ShortMessage.Proofs.Dispatcher.Independence
import ShortMessage.Proofs.Dispatcher.Interrupted
import ShortMessage.Proofs.Dispatcher.Invariant
import ShortMessage.Proofs.Dispatcher.Launch
import ShortMessage.Proofs.Dispatcher.Loopback
import ShortMessage.Proofs.Dispatcher.OnCard
import ShortMessage.Proofs.Dispatcher.Once
import ShortMessage.Proofs.Dispatcher.Ownership
import ShortMessage.Proofs.Dispatcher.Placement
import ShortMessage.Proofs.Dispatcher.Refusal
import ShortMessage.Proofs.Dispatcher.Replies
import ShortMessage.Proofs.Dispatcher.Resends
import ShortMessage.Proofs.Dispatcher.Run
import ShortMessage.Proofs.Dispatcher.Sweep
import ShortMessage.Proofs.Dispatcher.Trace
import ShortMessage.Proofs.Fallback.Decisions
import ShortMessage.Proofs.Fallback.Detach
import ShortMessage.Proofs.Fallback.Entries
import ShortMessage.Proofs.Fallback.Reference
import ShortMessage.Proofs.Fallback.Reuse
import ShortMessage.Proofs.Fallback.Run
import ShortMessage.Proofs.Fallback.Search
import ShortMessage.Proofs.Json.Form
import ShortMessage.Proofs.Json.RoundTrip
import ShortMessage.Proofs.MessageId
import ShortMessage.Proofs.Octets
import ShortMessage.Proofs.Registry
import ShortMessage.Proofs.Reordering
import ShortMessage.Proofs.Segment
import ShortMessage.Proofs.Segment.Count
import ShortMessage.Proofs.Segment.Plain
import ShortMessage.Proofs.Segment.Room
import ShortMessage.Proofs.Segment.Wire
import ShortMessage.Proofs.Settings.Fields
import ShortMessage.Proofs.Settings.Layers
import ShortMessage.Proofs.Settings.Load
import ShortMessage.Proofs.Settings.Text
import ShortMessage.Proofs.Text.Numeral
import ShortMessage.Proofs.Timestamp
import ShortMessage.Proofs.Toml.Distinct
import ShortMessage.Proofs.Toml.Keys
import ShortMessage.Proofs.Toml.Quoted
import ShortMessage.Proofs.Toml.Section
import ShortMessage.Proofs.Toml.Value
import ShortMessage.Proofs.Tracker.Account
import ShortMessage.Proofs.Tracker.Context
import ShortMessage.Proofs.Tracker.Develop
import ShortMessage.Proofs.Tracker.Locality
import ShortMessage.Proofs.Tracker.OnCourse
import ShortMessage.Proofs.Tracker.Order
import ShortMessage.Proofs.Tracker.Redelivery
import ShortMessage.Proofs.Tracker.Reports
import ShortMessage.Proofs.Tracker.Run
import ShortMessage.Proofs.Tracker.Settling
import ShortMessage.Proofs.Tracker.Signals
import ShortMessage.Proofs.Tracker.Tokens
import ShortMessage.Proofs.Tracker.Waiting
import ShortMessage.Proofs.Tracker.WholeSend
import ShortMessage.Proofs.Utf16
import ShortMessage.Radio
import ShortMessage.Radio.Loopback
import ShortMessage.Radio.Scripted
import ShortMessage.Registry
import ShortMessage.Segment
import ShortMessage.Service
import ShortMessage.Service.Task
import ShortMessage.Settings
import ShortMessage.Settings.Dialect
import ShortMessage.Settings.Layers
import ShortMessage.Settings.Load
import ShortMessage.Settings.Text
import ShortMessage.Text.Blank
import ShortMessage.Text.Hidden
import ShortMessage.Text.Numeral
import ShortMessage.Text.Quoted
import ShortMessage.Timestamp
import ShortMessage.Timestamp.Text
import ShortMessage.Token
import ShortMessage.Toml.Document
import ShortMessage.Toml.Node
import ShortMessage.Toml.Quoted
import ShortMessage.Toml.Scalar
import ShortMessage.Toml.Section
import ShortMessage.Toml.Statement
import ShortMessage.Toml.Value
import ShortMessage.Tracker
import ShortMessage.Utf16
