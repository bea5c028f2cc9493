import TypeOrigins.Analysis
import TypeOrigins.CommandLine.Action
import TypeOrigins.CommandLine.Flag
import TypeOrigins.CommandLine.Invocation
import TypeOrigins.CommandLine.Run
import TypeOrigins.Document.Basic
import TypeOrigins.Document.Check
import TypeOrigins.Document.Json
import TypeOrigins.Document.Moment
import TypeOrigins.Document.Toml
import TypeOrigins.Document.Yaml
import TypeOrigins.Document.Yaml.Node
import TypeOrigins.Document.Yaml.Scalar
import TypeOrigins.Document.Yaml.Token
import TypeOrigins.Facts.Integrity
import TypeOrigins.Facts.Loading
import TypeOrigins.Facts.Shape
import TypeOrigins.Files.Path
import TypeOrigins.Files.Tree
import TypeOrigins.KeepList.Basic
import TypeOrigins.KeepList.Descriptor
import TypeOrigins.Main
import TypeOrigins.Number.Binary64
import TypeOrigins.Number.Shortest
import TypeOrigins.Origin.Failure
import TypeOrigins.Origin.Search
import TypeOrigins.Program.Basic
import TypeOrigins.Program.CallGraph
import TypeOrigins.Program.Expression
import TypeOrigins.Program.TypeSymbol
import TypeOrigins.Proofs.Origin.CallStack
import TypeOrigins.Proofs.Origin.Enumeration
import TypeOrigins.Proofs.Origin.Exactness
import TypeOrigins.Proofs.Origin.Expansion
import TypeOrigins.Proofs.Origin.Flow
import TypeOrigins.Proofs.Origin.Frontier
import TypeOrigins.Proofs.Origin.Loop
import TypeOrigins.Proofs.Origin.Precision
import TypeOrigins.Proofs.Program.Callers
import TypeOrigins.Proofs.Report.Logged
import TypeOrigins.Report.Event
import TypeOrigins.Report.Problem
import TypeOrigins.Settings.Api
import TypeOrigins.Settings.Basic
import TypeOrigins.Settings.File
import TypeOrigins.Sorting
import TypeOrigins.Text.Blank
import TypeOrigins.Text.Casing
import TypeOrigins.Text.Digit
import TypeOrigins.Text.LowerCase
import TypeOrigins.Text.Numeral
import TypeOrigins.Text.Printable
import TypeOrigins.Text.Quoted
import TypeOrigins.Text.Utf8
import TypeOrigins.Proofs.Analysis.Entries
import TypeOrigins.Proofs.Analysis.Exactness
import TypeOrigins.Proofs.Analysis.Outcomes
import TypeOrigins.Proofs.KeepList.Members
import TypeOrigins.Proofs.KeepList.Reading
import TypeOrigins.Proofs.Program.Reordering
import TypeOrigins.Proofs.Facts.Soundness
import TypeOrigins.Proofs.Origin.BoundCallers
import TypeOrigins.Proofs.Analysis.Schedule
import TypeOrigins.Proofs.Document.Check
import TypeOrigins.Proofs.Facts.Reordering
import TypeOrigins.Proofs.Origin.Reordering
import TypeOrigins.Proofs.Analysis.Reordering
import TypeOrigins.Proofs.Facts.WellFormed
import TypeOrigins.Proofs.Origin.Declared
import TypeOrigins.Proofs.Analysis.Extension
import TypeOrigins.Proofs.KeepList.RoundTrip
import TypeOrigins.Proofs.Files.Growth
import TypeOrigins.Proofs.Report.Quiet
import TypeOrigins.Proofs.CommandLine.Traces
import TypeOrigins.Proofs.Facts.Description
import TypeOrigins.Proofs.Facts.Writing
import TypeOrigins.Proofs.Program.DocumentOrder
import TypeOrigins.Proofs.Program.Alike
import TypeOrigins.Proofs.Origin.Alike
import TypeOrigins.Proofs.Analysis.Alike
import TypeOrigins.Proofs.Analysis.Diagnostics
import TypeOrigins.Proofs.Analysis.Renaming
import TypeOrigins.Proofs.Origin.DepthLimit
import TypeOrigins.Proofs.Origin.Trace
import TypeOrigins.Proofs.Origin.Effort
import TypeOrigins.Proofs.Analysis.FailureModes
import TypeOrigins.Proofs.Origin.Distances
import TypeOrigins.Proofs.Table
import TypeOrigins.Proofs.Program.CallIndex
import TypeOrigins.Proofs.Analysis.EntryOrder
import TypeOrigins.Proofs.KeepList.Canonical
import TypeOrigins.Proofs.Text.Utf8
import TypeOrigins.Proofs.Document.LongIntegers
import TypeOrigins.Proofs.Facts.Ordinals
import TypeOrigins.Proofs.Document.Json
import TypeOrigins.Proofs.Facts.Loading
import TypeOrigins.Proofs.Text.Trimming
import TypeOrigins.Proofs.Text.Numeral
import TypeOrigins.Proofs.Document.Update
import TypeOrigins.Proofs.Settings.Notation
import TypeOrigins.Proofs.Settings.Fields
import TypeOrigins.Proofs.Settings.Overrides
import TypeOrigins.Proofs.Settings.Precedence
import TypeOrigins.Proofs.Settings.Range
import TypeOrigins.Proofs.Analysis.Characters
import TypeOrigins.Proofs.Origin.Redundancy
import TypeOrigins.Proofs.Facts.CallGraph
