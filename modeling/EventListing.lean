import EventListing.OrderedMap
import EventListing.Number.Decimal
import EventListing.Text.Quoted
import EventListing.Text.Case
import EventListing.Line
import EventListing.Line.Bytes
import EventListing.Record.Decode
import EventListing.UnitName.Path
import EventListing.UnitName.Long
import EventListing.LineRange
import EventListing.Diagnostic
import EventListing.LineMap
import EventListing.Forest.Builder
import EventListing.Forest.Offset
import EventListing.Resolution.Strategy
import EventListing.Report.FileReport
import EventListing.Json
import EventListing.Output
import EventListing.Toml.Document
import EventListing.Config
import EventListing.Command.Run
import EventListing.Main
import EventListing.Proofs.Forest.Bare
import EventListing.Proofs.Forest.Nesting
import EventListing.Proofs.LineMap.Splice
import EventListing.Proofs.Resolution.Lines
import EventListing.Proofs.Resolution.Inlining
import EventListing.Proofs.Record.Width
import EventListing.Proofs.Forest.Errors
import EventListing.Proofs.Resolution.Soundness
import EventListing.Proofs.Resolution.ByLine
import EventListing.Proofs.Resolution.Tracked
import EventListing.Proofs.Resolution.Agreement
import EventListing.Proofs.Resolution.Insertions
import EventListing.Proofs.Record.Gather
import EventListing.Proofs.Resolution.Accepted
import EventListing.Proofs.Forest.Reports
import EventListing.Proofs.Resolution.Moments
import EventListing.Proofs.OneLess
import EventListing.Proofs.Record.Others
import EventListing.Proofs.Resolution.Independence
import EventListing.Proofs.Resolution.Cuts
import EventListing.Proofs.Resolution.Removals
import EventListing.Proofs.Resolution.Plain
import EventListing.Proofs.Resolution.FromOne
import EventListing.Proofs.Forest.Steps
import EventListing.Proofs.Resolution.Repeated
import EventListing.Proofs.Resolution.InOrder
import EventListing.Proofs.Forest.Growth
import EventListing.Proofs.Resolution.LaterSteps
import EventListing.Proofs.Record.Brackets
import EventListing.Proofs.Forest.Bracketed
import EventListing.Proofs.Resolution.Unused
import EventListing.Proofs.Resolution.Skipped
import EventListing.Proofs.Line.Kept
import EventListing.Proofs.Record.WellNested
import EventListing.Proofs.Line.Cells
import EventListing.Proofs.Number.Padded
import EventListing.Proofs.Resolution.CopyRanges
import EventListing.Proofs.Record.Written
import EventListing.Proofs.Forest.View
import EventListing.Proofs.Forest.Files
import EventListing.Proofs.Resolution.Uncounted
import EventListing.Proofs.Resolution.Outside
import EventListing.Proofs.Text.OneLine
import EventListing.Proofs.Record.OneLine
import EventListing.Proofs.Resolution.OneLine
import EventListing.Proofs.Command.Outcome
import EventListing.Proofs.Command.TextOutput
import EventListing.Proofs.UnitName.Shares
import EventListing.Proofs.Number.Numeral
import EventListing.Proofs.Record.Decodes
import EventListing.Proofs.LineMap.ArraySplice
import EventListing.Proofs.Report.EditorRange
import EventListing.Proofs.DiagnosticMap.Merge
import EventListing.Proofs.Report.BothTexts
import EventListing.Proofs.Report.Resources
import EventListing.Proofs.Report.EditorSpan
import EventListing.Proofs.UnitName.Paths
import EventListing.Proofs.Forest.FirstStep
import EventListing.Proofs.Forest.Outward
import EventListing.Proofs.Line.Bytes
