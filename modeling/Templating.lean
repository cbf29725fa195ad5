import Templating.Block.Basic
import Templating.Block.Cursor
import Templating.Block.Lexeme
import Templating.CommandLine.Display
import Templating.CommandLine.Invocation
import Templating.CommandLine.Parameter
import Templating.CommandLine.Reader
import Templating.CommandLine.Run
import Templating.CommandLine.Shorthand
import Templating.CommandLine.Verb
import Templating.Directive
import Templating.Discovery
import Templating.Disk.Basic
import Templating.Disk.Write
import Templating.Document
import Templating.Encoding.Basic
import Templating.Encoding.Utf16
import Templating.Encoding.Utf8
import Templating.Error.Basic
import Templating.Error.Diagnostic
import Templating.FileSystem
import Templating.Fixture.Basic
import Templating.Fixture.Category
import Templating.Fixture.Frontmatter
import Templating.Fixture.Outcome
import Templating.Fixture.Report
import Templating.Generator
import Templating.Grammar
import Templating.Include.Attribute
import Templating.Include.Expansion
import Templating.Include.Tag
import Templating.Lists
import Templating.Location
import Templating.Path.Basic
import Templating.Path.Fold
import Templating.Program.Basic
import Templating.Program.Plan
import Templating.Program.Swift
import Templating.Text.Basic
import Templating.Text.Blank
import Templating.Text.Hex
import Templating.Text.Printable
import Templating.Text.Quoted
import Templating.Text.Read
import Templating.Toml.Basic
import Templating.Toml.Quoted
import Templating.Version.Basic
import Templating.Version.Parser
import Templating.Main
import Templating.Proofs.Block.Lexeme
import Templating.Proofs.Block.Scan
import Templating.Proofs.Document.Lookup
import Templating.Proofs.Except
import Templating.Proofs.Include.Composition
import Templating.Proofs.Include.Cycle
import Templating.Proofs.Include.Directive
import Templating.Proofs.Include.Graph
import Templating.Proofs.Include.Layout
import Templating.Proofs.Include.Marker
import Templating.Proofs.Include.Memory
import Templating.Proofs.Include.Outline
import Templating.Proofs.Include.Reference
import Templating.Proofs.Include.Rule
import Templating.Proofs.Include.SourceMap
import Templating.Proofs.Include.Walk
import Templating.Proofs.Path.Folded
import Templating.Proofs.Text.Hex
import Templating.Proofs.Text.Marks
import Templating.Proofs.Text.Offsets
import Templating.Proofs.Version.Characters
import Templating.Proofs.Block.Decomposition
import Templating.Proofs.Include.Agreement
import Templating.Proofs.Include.Fault
import Templating.Proofs.Include.Trace
import Templating.Proofs.Program.Failure
import Templating.Proofs.Program.Remainder
import Templating.Proofs.Encoding.Utf16
import Templating.Proofs.Encoding.RoundTrip
import Templating.Proofs.Text.Lines
import Templating.Proofs.Program.StringLiteral
import Templating.Proofs.Program.Rendering
import Templating.Proofs.Program.PassThrough
import Templating.Proofs.Fixture.Verdict
import Templating.Proofs.Disk.Refusal
import Templating.Proofs.Disk.Job
import Templating.Proofs.Include.Gate
import Templating.Proofs.Include.Reads
import Templating.Proofs.Program.Statements
import Templating.Proofs.Version.Spelling
import Templating.Proofs.Include.Partition
import Templating.Proofs.Block.Grammar
import Templating.Proofs.Block.Cursor
import Templating.Proofs.Block.Window
import Templating.Proofs.Path.Parts
import Templating.Proofs.Path.Resolution
import Templating.Proofs.Include.Keys
import Templating.Proofs.Include.Attribute
import Templating.Proofs.CommandLine.Spelling
import Templating.Proofs.CommandLine.Shorthand
import Templating.Proofs.Encoding.Overlap
import Templating.Proofs.CommandLine.Display
import Templating.Proofs.Path.Order
import Templating.Proofs.Path.Below
import Templating.Proofs.Fixture.Frontmatter
import Templating.Proofs.Disk.Tree
import Templating.Proofs.Fixture.Category
import Templating.Proofs.Fixture.Report
import Templating.Proofs.Fixture.Selection
import Templating.Proofs.Disk.Discovery
import Templating.Proofs.Program.Schedule
import Templating.Proofs.CommandLine.Check
import Templating.Proofs.Error.Nesting
