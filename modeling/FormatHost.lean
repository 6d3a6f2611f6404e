import FormatHost.Bindings
import FormatHost.Buffer
import FormatHost.Client
import FormatHost.CommandLine
import FormatHost.Console
import FormatHost.Decimal.Shortest
import FormatHost.Destination
import FormatHost.Diff.Compact
import FormatHost.Diff.Edit
import FormatHost.Diff.Unified
import FormatHost.Engine
import FormatHost.Engine.Foreign
import FormatHost.Environment
import FormatHost.Fault
import FormatHost.Files.FileSystem
import FormatHost.Files.Lines
import FormatHost.Files.Path
import FormatHost.Gate
import FormatHost.Header
import FormatHost.Ignore.Expression
import FormatHost.Ignore.Glob
import FormatHost.Ignore.Layer
import FormatHost.Ignore.Rules
import FormatHost.Ignore.UserRules
import FormatHost.Inputs
import FormatHost.Intake
import FormatHost.Job
import FormatHost.Json.Fault
import FormatHost.Json.Record
import FormatHost.Json.Scan
import FormatHost.Layout
import FormatHost.Layout.Decode
import FormatHost.Main
import FormatHost.Notice
import FormatHost.NumericSurface
import FormatHost.OsError
import FormatHost.Program
import FormatHost.Proofs.Destination.AllOrNothing
import FormatHost.Proofs.Destination.Draft
import FormatHost.Proofs.Destination.Links
import FormatHost.Proofs.Destination.Reliable
import FormatHost.Proofs.Diff.Compact
import FormatHost.Proofs.Diff.Hunks
import FormatHost.Proofs.Diff.Script
import FormatHost.Proofs.Diff.Unified
import FormatHost.Proofs.Engine.Replies
import FormatHost.Proofs.Files.Paths
import FormatHost.Proofs.Files.Queries
import FormatHost.Proofs.Files.Replacing
import FormatHost.Proofs.Files.Store
import FormatHost.Proofs.Files.Walk
import FormatHost.Proofs.Gate.Barrier
import FormatHost.Proofs.Gate.Runs
import FormatHost.Proofs.Gate.Swapped
import FormatHost.Proofs.Header
import FormatHost.Proofs.Inputs.Extensions
import FormatHost.Proofs.Inputs.Wanted
import FormatHost.Proofs.Intake
import FormatHost.Proofs.Job.Convergence
import FormatHost.Proofs.Job.Following
import FormatHost.Proofs.Job.Isolation
import FormatHost.Proofs.Job.Showing
import FormatHost.Proofs.Job.Sources
import FormatHost.Proofs.Json.Course
import FormatHost.Proofs.Json.Gives
import FormatHost.Proofs.Json.Grammar
import FormatHost.Proofs.Json.Numbers
import FormatHost.Proofs.Json.Records
import FormatHost.Proofs.Json.Skipping
import FormatHost.Proofs.Json.Strings
import FormatHost.Proofs.LineContent
import FormatHost.Proofs.NormalForm
import FormatHost.Proofs.Rendering.Content
import FormatHost.Proofs.Rendering.Course
import FormatHost.Proofs.Rendering.Endings
import FormatHost.Proofs.Rendering.FixedPoint
import FormatHost.Proofs.Rendering.Indentation
import FormatHost.Proofs.Rendering.Items
import FormatHost.Proofs.Rendering.Normal
import FormatHost.Proofs.Rendering.Pieces
import FormatHost.Proofs.Rendering.Relaying
import FormatHost.Proofs.Rendering.Stream
import FormatHost.Proofs.Surface.Agreement
import FormatHost.Proofs.Surface.LastError
import FormatHost.Proofs.Surface.Pulling
import FormatHost.Proofs.Surface.Transparency
import FormatHost.Proofs.Text.Decoding
import FormatHost.Proofs.Text.Endings
import FormatHost.Proofs.Text.Lines
import FormatHost.Proofs.Text.Solid
import FormatHost.Proofs.Text.Spans
import FormatHost.Proofs.Text.Utf8
import FormatHost.Proofs.Text.Visible
import FormatHost.Proofs.TokenWriter
import FormatHost.Proofs.Tree.Ancestors
import FormatHost.Proofs.Tree.Depth
import FormatHost.Proofs.Tree.Leaves
import FormatHost.Proofs.Tree.Moved
import FormatHost.Proofs.Tree.WellFormed
import FormatHost.Proofs.Tree.Written
import FormatHost.Render
import FormatHost.Render.Stream
import FormatHost.Settings
import FormatHost.Status
import FormatHost.Text.Blank
import FormatHost.Text.Printable
import FormatHost.Text.Quoted
import FormatHost.Text.Ruler
import FormatHost.Text.Span
import FormatHost.Text.Utf8
import FormatHost.TokenWriter
import FormatHost.Toml.Document
import FormatHost.Toml.Scan
import FormatHost.Toml.Value
import FormatHost.Tree.Basic
import FormatHost.Tree.Decode
