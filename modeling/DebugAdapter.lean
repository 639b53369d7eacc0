import DebugAdapter.Attach
import DebugAdapter.Breakpoint.Function
import DebugAdapter.Breakpoint.Line
import DebugAdapter.CommandLine
import DebugAdapter.Config.Basic
import DebugAdapter.Config.LogFilter
import DebugAdapter.Data.Table
import DebugAdapter.Debugger.Basic
import DebugAdapter.Debugger.Frames
import DebugAdapter.Debugger.Requests
import DebugAdapter.Decimal.Compact
import DebugAdapter.Decimal.Positional
import DebugAdapter.Decimal.Reading
import DebugAdapter.Decimal.Shortest
import DebugAdapter.Json.Basic
import DebugAdapter.Json.Decode
import DebugAdapter.Json.Number
import DebugAdapter.Json.Printer
import DebugAdapter.Json.Reader
import DebugAdapter.Main
import DebugAdapter.Path.Canonical
import DebugAdapter.Path.Stem
import DebugAdapter.Path.Transform
import DebugAdapter.Redaction
import DebugAdapter.Script.Eval
import DebugAdapter.Script.Execution
import DebugAdapter.Script.Expr.Basic
import DebugAdapter.Script.Expr.Parser
import DebugAdapter.Script.Host
import DebugAdapter.Script.Operand
import DebugAdapter.Script.Program.Basic
import DebugAdapter.Script.Program.Parser
import DebugAdapter.Script.Stack
import DebugAdapter.Script.Token
import DebugAdapter.Script.Turn
import DebugAdapter.Step
import DebugAdapter.Suspension.Context
import DebugAdapter.Suspension.Coordinator
import DebugAdapter.Suspension.Described
import DebugAdapter.Suspension.Stop
import DebugAdapter.Text.Blank
import DebugAdapter.Text.Case
import DebugAdapter.Text.CaseTable
import DebugAdapter.Text.Letters
import DebugAdapter.Text.Quoted
import DebugAdapter.Text.Visible
import DebugAdapter.Thread.Order
import DebugAdapter.Toml.Document
import DebugAdapter.Toml.Scalar
import DebugAdapter.Value.Basic
import DebugAdapter.Value.Copy
import DebugAdapter.Value.Handles
import DebugAdapter.Value.Inspector
import DebugAdapter.Value.Parts
import DebugAdapter.Value.PinCache
import DebugAdapter.Value.Truth
import DebugAdapter.Wire.Arguments
import DebugAdapter.Wire.Frame
import DebugAdapter.Wire.Handler
import DebugAdapter.Wire.Message
import DebugAdapter.Wire.Rows
import DebugAdapter.Wire.Session
import DebugAdapter.Proofs.Text.Bytes
import DebugAdapter.Proofs.Text.Cuts
import DebugAdapter.Proofs.Text.Letters
import DebugAdapter.Proofs.Text.Lowercase
import DebugAdapter.Proofs.Path.Canonical
import DebugAdapter.Proofs.Path.Transform
import DebugAdapter.Proofs.Path.Prefixes
import DebugAdapter.Proofs.Suspension.History
import DebugAdapter.Proofs.Debugger.History
import DebugAdapter.Proofs.Suspension.Accounting
import DebugAdapter.Proofs.Suspension.Decision
import DebugAdapter.Proofs.Suspension.Interleaving
import DebugAdapter.Proofs.Suspension.Teardown
import DebugAdapter.Proofs.Breakpoint.Lines
import DebugAdapter.Proofs.Breakpoint.Functions
import DebugAdapter.Proofs.Suspension.Stops
import DebugAdapter.Proofs.Suspension.LineStops
import DebugAdapter.Proofs.Suspension.EntryStops
import DebugAdapter.Proofs.Suspension.Stepping
import DebugAdapter.Proofs.Value.Memory
import DebugAdapter.Proofs.Value.Handles
import DebugAdapter.Proofs.Value.Tracking
import DebugAdapter.Proofs.Debugger.Happenings
import DebugAdapter.Proofs.Debugger.Announcements
import DebugAdapter.Proofs.Debugger.Frames
import DebugAdapter.Proofs.Value.Listing
import DebugAdapter.Proofs.Debugger.Scopes
import DebugAdapter.Proofs.Value.Pins
import DebugAdapter.Proofs.Value.Upkeep
import DebugAdapter.Proofs.Value.Children
import DebugAdapter.Proofs.Value.TableRows
import DebugAdapter.Proofs.Debugger.Refusals
import DebugAdapter.Proofs.Debugger.Setup
import DebugAdapter.Proofs.Debugger.Spellings
import DebugAdapter.Proofs.Wire.Requests
import DebugAdapter.Proofs.Wire.Reactions
import DebugAdapter.Proofs.Wire.Stream
import DebugAdapter.Proofs.Wire.Service
import DebugAdapter.Proofs.Wire.Replies
import DebugAdapter.Proofs.Wire.Strangers
import DebugAdapter.Proofs.Wire.Interleaving
import DebugAdapter.Proofs.Wire.Records
import DebugAdapter.Proofs.Wire.Teardown
import DebugAdapter.Proofs.Wire.Strays
import DebugAdapter.Proofs.Wire.Endings
import DebugAdapter.Proofs.Wire.Framing
import DebugAdapter.Proofs.Wire.Truncation
import DebugAdapter.Proofs.Script.Lines
import DebugAdapter.Proofs.Script.Functions
import DebugAdapter.Proofs.Script.Runs
import DebugAdapter.Proofs.Script.ReportedLines
import DebugAdapter.Proofs.Script.FrameStack
import DebugAdapter.Proofs.Script.Hosts
import DebugAdapter.Proofs.Script.Transparency
import DebugAdapter.Proofs.Script.Exceptions
import DebugAdapter.Proofs.Breakpoint.Sizes
import DebugAdapter.Proofs.Script.Comparisons
import DebugAdapter.Proofs.Value.Spending
import DebugAdapter.Proofs.Debugger.Results
import DebugAdapter.Proofs.Debugger.Reclaiming
import DebugAdapter.Proofs.Text.Search
import DebugAdapter.Proofs.Redaction.Stretches
import DebugAdapter.Proofs.Redaction.Backticks
import DebugAdapter.Proofs.Redaction.Names
import DebugAdapter.Proofs.Redaction.Messages
import DebugAdapter.Proofs.Value.Recency
import DebugAdapter.Proofs.Value.Advertised
import DebugAdapter.Proofs.Thread.Order
import DebugAdapter.Proofs.Debugger.Threads
import DebugAdapter.Proofs.Script.Layout
import DebugAdapter.Proofs.Script.Grammar
import DebugAdapter.Proofs.Script.Grammar.Soundness
import DebugAdapter.Proofs.Script.Grammar.Completeness
import DebugAdapter.Proofs.Script.Grammar.Printing
import DebugAdapter.Proofs.Script.Lexemes
import DebugAdapter.Proofs.Script.Tokens
import DebugAdapter.Proofs.Script.ValueEquality
import DebugAdapter.Proofs.Script.Arithmetic
import DebugAdapter.Proofs.Script.Assignments
