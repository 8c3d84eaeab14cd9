import ScriptAnalysis.Balance
import ScriptAnalysis.Cache.Listings
import ScriptAnalysis.Cache.Snapshots
import ScriptAnalysis.Cache.Source
import ScriptAnalysis.Command.Arguments
import ScriptAnalysis.Command.Check
import ScriptAnalysis.Command.Run
import ScriptAnalysis.Command.Serve
import ScriptAnalysis.Command.Transcript
import ScriptAnalysis.Config.Project
import ScriptAnalysis.Config.Resolve
import ScriptAnalysis.Config.Settings
import ScriptAnalysis.ContentHash
import ScriptAnalysis.ContentHash.Digest
import ScriptAnalysis.Decimal.Shortest
import ScriptAnalysis.Diagnostic.Kind
import ScriptAnalysis.Diagnostic.Renderer
import ScriptAnalysis.Diagnostic.Report
import ScriptAnalysis.Engine
import ScriptAnalysis.Engine.Delimiter
import ScriptAnalysis.Engine.Prepared
import ScriptAnalysis.Engine.Scripted
import ScriptAnalysis.Engine.Wire
import ScriptAnalysis.Event
import ScriptAnalysis.Host
import ScriptAnalysis.Json
import ScriptAnalysis.Json.Decode
import ScriptAnalysis.Json.Printer
import ScriptAnalysis.Json.Written
import ScriptAnalysis.Lint.Linter
import ScriptAnalysis.Lint.Rule
import ScriptAnalysis.Log.Directive
import ScriptAnalysis.Log.Filter
import ScriptAnalysis.Log.Pattern
import ScriptAnalysis.Log.Pattern.CharClass
import ScriptAnalysis.Log.Pattern.Escape
import ScriptAnalysis.Log.Pattern.Mode
import ScriptAnalysis.Log.Record
import ScriptAnalysis.Main
import ScriptAnalysis.MessageChain
import ScriptAnalysis.PathMap
import ScriptAnalysis.Position
import ScriptAnalysis.Proofs.Balance
import ScriptAnalysis.Proofs.Balance.Alike
import ScriptAnalysis.Proofs.Balance.Blame
import ScriptAnalysis.Proofs.Balance.Order
import ScriptAnalysis.Proofs.Balance.Repair
import ScriptAnalysis.Proofs.Cache.Automaton
import ScriptAnalysis.Proofs.Cache.Content
import ScriptAnalysis.Proofs.Cache.Entries
import ScriptAnalysis.Proofs.Cache.Exploration
import ScriptAnalysis.Proofs.Cache.Listings
import ScriptAnalysis.Proofs.Cache.Population
import ScriptAnalysis.Proofs.Cache.Reading
import ScriptAnalysis.Proofs.Cache.Representation
import ScriptAnalysis.Proofs.Cache.Unbounded
import ScriptAnalysis.Proofs.Cache.Watch
import ScriptAnalysis.Proofs.Command.Check
import ScriptAnalysis.Proofs.Config.Acceptance
import ScriptAnalysis.Proofs.Config.Location
import ScriptAnalysis.Proofs.Config.Partition
import ScriptAnalysis.Proofs.Config.Resolve
import ScriptAnalysis.Proofs.Config.Shape
import ScriptAnalysis.Proofs.ContentHash.Spelling
import ScriptAnalysis.Proofs.Engine.Naming
import ScriptAnalysis.Proofs.Host.Library
import ScriptAnalysis.Proofs.Host.Questions
import ScriptAnalysis.Proofs.Host.Scripts
import ScriptAnalysis.Proofs.Json.Number
import ScriptAnalysis.Proofs.Json.OneLine
import ScriptAnalysis.Proofs.Json.Reading
import ScriptAnalysis.Proofs.Json.Record
import ScriptAnalysis.Proofs.Json.RoundTrip
import ScriptAnalysis.Proofs.Json.Sorted
import ScriptAnalysis.Proofs.Lint.Allow
import ScriptAnalysis.Proofs.Lint.Findings
import ScriptAnalysis.Proofs.Lint.Order
import ScriptAnalysis.Proofs.MessageChain
import ScriptAnalysis.Proofs.Path.Canonical
import ScriptAnalysis.Proofs.Path.Extension
import ScriptAnalysis.Proofs.Path.Map
import ScriptAnalysis.Proofs.Path.Order
import ScriptAnalysis.Proofs.Path.Route
import ScriptAnalysis.Proofs.Path.Spelling
import ScriptAnalysis.Proofs.Service.Batch
import ScriptAnalysis.Proofs.Service.Change
import ScriptAnalysis.Proofs.Service.Coherence
import ScriptAnalysis.Proofs.Service.Completion
import ScriptAnalysis.Proofs.Service.Configuration
import ScriptAnalysis.Proofs.Service.Continuity
import ScriptAnalysis.Proofs.Service.Creation
import ScriptAnalysis.Proofs.Service.Delimiter
import ScriptAnalysis.Proofs.Service.Failures
import ScriptAnalysis.Proofs.Service.Growth
import ScriptAnalysis.Proofs.Service.LineEndings
import ScriptAnalysis.Proofs.Service.Mirror
import ScriptAnalysis.Proofs.Service.Notification
import ScriptAnalysis.Proofs.Service.Pipeline
import ScriptAnalysis.Proofs.Service.Pointing
import ScriptAnalysis.Proofs.Service.Posed
import ScriptAnalysis.Proofs.Service.Processed
import ScriptAnalysis.Proofs.Service.Provenance
import ScriptAnalysis.Proofs.Service.Reachable
import ScriptAnalysis.Proofs.Service.Reconfiguration
import ScriptAnalysis.Proofs.Service.Registry
import ScriptAnalysis.Proofs.Service.Repetition
import ScriptAnalysis.Proofs.Service.Separation
import ScriptAnalysis.Proofs.Service.SourceOrder
import ScriptAnalysis.Proofs.Service.Stages
import ScriptAnalysis.Proofs.Service.Upkeep
import ScriptAnalysis.Proofs.Service.Wholeness
import ScriptAnalysis.Proofs.Service.World
import ScriptAnalysis.Proofs.Session.Envelope
import ScriptAnalysis.Proofs.Session.Rejection
import ScriptAnalysis.Proofs.Snapshot.Access
import ScriptAnalysis.Proofs.Snapshot.Lines
import ScriptAnalysis.Proofs.Snapshot.Order
import ScriptAnalysis.Proofs.Snapshot.Partition
import ScriptAnalysis.Proofs.Snapshot.Position
import ScriptAnalysis.Proofs.Store.Closure
import ScriptAnalysis.Proofs.Store.Subtree
import ScriptAnalysis.Proofs.Store.Tree
import ScriptAnalysis.Proofs.Text.Bytes
import ScriptAnalysis.Proofs.Text.LineEndings
import ScriptAnalysis.Proofs.Text.Lines
import ScriptAnalysis.Proofs.Text.Offsets
import ScriptAnalysis.Proofs.Text.Order
import ScriptAnalysis.Proofs.Token.Breaks
import ScriptAnalysis.Proofs.Token.Bytes
import ScriptAnalysis.Proofs.Token.Composition
import ScriptAnalysis.Proofs.Token.Contents
import ScriptAnalysis.Proofs.Token.LineEndings
import ScriptAnalysis.Proofs.Token.Pieces
import ScriptAnalysis.Proofs.Token.Scanner
import ScriptAnalysis.Proofs.Toml.Distinct
import ScriptAnalysis.Proofs.Toml.Meaning
import ScriptAnalysis.Proofs.Traced
import ScriptAnalysis.Proofs.Wire
import ScriptAnalysis.ScriptKind
import ScriptAnalysis.Service.Error
import ScriptAnalysis.Service.Notification
import ScriptAnalysis.Service.Pipeline
import ScriptAnalysis.Service.Project
import ScriptAnalysis.Service.Registry
import ScriptAnalysis.Service.Requests
import ScriptAnalysis.Session
import ScriptAnalysis.Session.Command
import ScriptAnalysis.Session.Request
import ScriptAnalysis.Session.Response
import ScriptAnalysis.ShapeError
import ScriptAnalysis.Snapshot
import ScriptAnalysis.SourcePath
import ScriptAnalysis.Store
import ScriptAnalysis.Store.Disk
import ScriptAnalysis.Store.Known
import ScriptAnalysis.Store.Tree
import ScriptAnalysis.Text.Alphanumeric
import ScriptAnalysis.Text.Blank
import ScriptAnalysis.Text.Cursor
import ScriptAnalysis.Text.Distinct
import ScriptAnalysis.Text.Hexadecimal
import ScriptAnalysis.Text.Lines
import ScriptAnalysis.Text.Offsets
import ScriptAnalysis.Text.Quoted
import ScriptAnalysis.Text.Search
import ScriptAnalysis.Text.Unprintable
import ScriptAnalysis.Token
import ScriptAnalysis.Toml.Document
import ScriptAnalysis.Toml.Excerpt
import ScriptAnalysis.Toml.Moment
import ScriptAnalysis.Toml.Number
import ScriptAnalysis.Toml.Text
import ScriptAnalysis.Toml.Value
import ScriptAnalysis.Traced
