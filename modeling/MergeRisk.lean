import MergeRisk.Analysis
import MergeRisk.Attribution
import MergeRisk.CallGraph.Ancestor
import MergeRisk.CallGraph.Basic
import MergeRisk.CallGraph.Dot
import MergeRisk.CallGraph.Indexed
import MergeRisk.CallGraph.Queue
import MergeRisk.Change
import MergeRisk.CommandLine.Command
import MergeRisk.CommandLine.Option
import MergeRisk.CommandLine.Run
import MergeRisk.Date.Basic
import MergeRisk.Date.Reader
import MergeRisk.Decimal
import MergeRisk.Diff.Basic
import MergeRisk.Diff.Numbering
import MergeRisk.Diff.Reader
import MergeRisk.Diff.Script
import MergeRisk.Failure
import MergeRisk.Forms
import MergeRisk.History
import MergeRisk.Json.Basic
import MergeRisk.Json.Kept
import MergeRisk.Json.Reader
import MergeRisk.Json.Writer
import MergeRisk.Main
import MergeRisk.Merge
import MergeRisk.Ordered
import MergeRisk.OutputFormat
import MergeRisk.Path
import MergeRisk.Pattern.Basic
import MergeRisk.Pattern.Reader
import MergeRisk.Pattern.Wildcard
import MergeRisk.Program.Basic
import MergeRisk.Program.Indexed
import MergeRisk.Program.Walk
import MergeRisk.Proofs.AcyclicGraph
import MergeRisk.Proofs.AdditionAttribution
import MergeRisk.Proofs.Attribution
import MergeRisk.Proofs.BinaryNotes
import MergeRisk.Proofs.CallGraph
import MergeRisk.Proofs.CommonAncestor
import MergeRisk.Proofs.DiffConcatenation
import MergeRisk.Proofs.DiffReading
import MergeRisk.Proofs.DotText
import MergeRisk.Proofs.EditScript
import MergeRisk.Proofs.FileSections
import MergeRisk.Proofs.HistoryAnalysis
import MergeRisk.Proofs.HunkHeader
import MergeRisk.Proofs.HunkNumbers
import MergeRisk.Proofs.HunkRows
import MergeRisk.Proofs.IndexedGraph
import MergeRisk.Proofs.JsonReading
import MergeRisk.Proofs.LineAttribution
import MergeRisk.Proofs.Lines
import MergeRisk.Proofs.LowestAncestor
import MergeRisk.Proofs.MergeRecords
import MergeRisk.Proofs.MergedScript
import MergeRisk.Proofs.MirrorSymmetry
import MergeRisk.Proofs.MissingSides
import MergeRisk.Proofs.Ordered
import MergeRisk.Proofs.PairAncestors
import MergeRisk.Proofs.PatchReading
import MergeRisk.Proofs.QueueAncestry
import MergeRisk.Proofs.QuotedFields
import MergeRisk.Proofs.QuotedPaths
import MergeRisk.Proofs.RepeatedCalls
import MergeRisk.Proofs.ReportReading
import MergeRisk.Proofs.ScenarioFile
import MergeRisk.Proofs.ScriptDiff
import MergeRisk.Proofs.Search
import MergeRisk.Proofs.SeparatorClash
import MergeRisk.Proofs.SignatureNotation
import MergeRisk.Proofs.SignatureText
import MergeRisk.Proofs.TitledSections
import MergeRisk.Proofs.TouchedMethods
import MergeRisk.Proofs.TypeNames
import MergeRisk.Proofs.Utf8
import MergeRisk.Proofs.Visit
import MergeRisk.Proofs.Walk
import MergeRisk.Proofs.WrittenDiff
import MergeRisk.Report.Separated
import MergeRisk.Report.Summary
import MergeRisk.Repository.Attribute
import MergeRisk.Repository.Basic
import MergeRisk.Repository.Configuration
import MergeRisk.Repository.Files
import MergeRisk.Repository.Mining
import MergeRisk.Repository.Object
import MergeRisk.Repository.Patch
import MergeRisk.Repository.Reference
import MergeRisk.Repository.Revision
import MergeRisk.Scenario
import MergeRisk.Search
import MergeRisk.Settings
import MergeRisk.SettingsFile
import MergeRisk.Sha1
import MergeRisk.Signature
import MergeRisk.Sources
import MergeRisk.Span
import MergeRisk.SpanFile
import MergeRisk.Storage.Basic
import MergeRisk.Storage.Inflate
import MergeRisk.Storage.Object
import MergeRisk.Storage.Pack
import MergeRisk.Text.Blank
import MergeRisk.Text.Cut
import MergeRisk.Text.Hex
import MergeRisk.Text.LetterCase
import MergeRisk.Text.Lowercase
import MergeRisk.Text.Natural
import MergeRisk.Text.Utf8
import MergeRisk.Toml.Basic
import MergeRisk.Toml.Reader
import MergeRisk.Toml.Scalar
import MergeRisk.TypeName
import MergeRisk.Workspace
