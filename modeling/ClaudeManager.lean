import ClaudeManager.Json.Value
import ClaudeManager.Json.Decode
import ClaudeManager.Program.Containers
import ClaudeManager.Program.Stateful
import ClaudeManager.Program.Views
import ClaudeManager.Program.Histories
import ClaudeManager.Program.Stable
import ClaudeManager.Messaging.Base
import ClaudeManager.Messaging.Store
import ClaudeManager.Messaging.ReadModel
import ClaudeManager.Messaging.Reduce
import ClaudeManager.Messaging.Effects
import ClaudeManager.Messaging.Frames
import ClaudeManager.Messaging.Journal
import ClaudeManager.Messaging.Channels
import ClaudeManager.Messaging.Ingest
import ClaudeManager.Messaging.Upload
import ClaudeManager.Messaging.Publish
import ClaudeManager.Messaging.Names
import ClaudeManager.Messaging.Mentions
import ClaudeManager.Messaging.Send
import ClaudeManager.Messaging.Administration
import ClaudeManager.Messaging.Commit
import ClaudeManager.Messaging.Admission
import ClaudeManager.Holder.Channel
import ClaudeManager.Holder.Association
import ClaudeManager.Holder.Records
import ClaudeManager.Holder.Dispatch
import ClaudeManager.Holder.Supervisor
import ClaudeManager.Holder.Exits
import ClaudeManager.Holder.ExitRuns
import ClaudeManager.Holder.Generations
import ClaudeManager.Holder.Calm
import ClaudeManager.Holder.Outcomes
import ClaudeManager.Holder.Deploys
import ClaudeManager.Holder.DeployRuns
import ClaudeManager.Holder.RollbackManifest
import ClaudeManager.Holder.Drained
import ClaudeManager.Python.Builtins
import ClaudeManager.Board.Items
import ClaudeManager.Program.Graphs
import ClaudeManager.Board.Transaction
import ClaudeManager.Board.Rules
import ClaudeManager.Board.Apply
import ClaudeManager.Board.Operations
import ClaudeManager.Board.Quiet
import ClaudeManager.Board.Cycles
import ClaudeManager.Board.Settle
import ClaudeManager.Board.Dependents
import ClaudeManager.Board.Consistent
import ClaudeManager.Board.Commit
import ClaudeManager.Board.Writes
import ClaudeManager.Board.Runs
import ClaudeManager.Board.States
import ClaudeManager.Program.Permits
import ClaudeManager.Board.Placement
import ClaudeManager.Board.Placements
import ClaudeManager.Board.History
import ClaudeManager.Board.Told
import ClaudeManager.Board.HandBack
import ClaudeManager.Board.HandedBack
import ClaudeManager.Python.Paths
import ClaudeManager.Gate.Commands
import ClaudeManager.Gate.Weakened
import ClaudeManager.Continuous.Blocks
import ClaudeManager.Continuous.Deliveries
import ClaudeManager.Continuous.Outcomes
import ClaudeManager.Continuous.Overlap
import ClaudeManager.Text.Utf8
import ClaudeManager.Text.Numbers
import ClaudeManager.Text.Calendar
import ClaudeManager.Continuous.Timestamps
import ClaudeManager.Restart.Quiesce
import ClaudeManager.Agent.Turns
import ClaudeManager.Agent.OpenTurns
import ClaudeManager.Agent.Restored
import ClaudeManager.Agent.Endings
import ClaudeManager.Agent.Wait
import ClaudeManager.Program.Tables
import ClaudeManager.Org.Orderly
import ClaudeManager.Org.ReportingLine
import ClaudeManager.Org.AutoPlacement
import ClaudeManager.Org.HomeMarks
import ClaudeManager.Alerts.Converged
import ClaudeManager.Wakes.Bounded
import ClaudeManager.Messaging.Calls
import ClaudeManager.Messaging.Reached
import ClaudeManager.Messaging.Unread
import ClaudeManager.Messaging.Watches
import ClaudeManager.Messaging.WakeIntents
import ClaudeManager.Messaging.Read
import ClaudeManager.Messaging.ReadPaths
import ClaudeManager.Text.Lines
import ClaudeManager.Text.Hunks
import ClaudeManager.Messaging.NormDiffs
import ClaudeManager.Messaging.NameRuns
import ClaudeManager.Org.Idempotent
import ClaudeManager.Text.Spans
import ClaudeManager.Workflow.Transcript
import ClaudeManager.Workflow.Cursor
import ClaudeManager.Workflow.Slices
import ClaudeManager.Workflow.Template
import ClaudeManager.Workflow.Rendering
import ClaudeManager.Program.Least
import ClaudeManager.Text.Hex
import ClaudeManager.Text.Trim
import ClaudeManager.Python.Integers
import ClaudeManager.Org.Leads
import ClaudeManager.Org.Reinstated
import ClaudeManager.Text.LineStarts
import ClaudeManager.Agent.ReceiptTail
import ClaudeManager.Agent.Receipts
import ClaudeManager.Reaper.Protection
import ClaudeManager.Monitor.Interrupted
import ClaudeManager.Gate.Provenance
import ClaudeManager.Messaging.ExportPages
import ClaudeManager.Messaging.MonitorRuns
import ClaudeManager.Messaging.MemberReplay
import ClaudeManager.Messaging.SearchBuild
