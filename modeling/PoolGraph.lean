import PoolGraph.Binding
import PoolGraph.CommandLine.Arguments
import PoolGraph.CommandLine.FileSystem
import PoolGraph.CommandLine.Run
import PoolGraph.Compile.Basic
import PoolGraph.Compile.Error
import PoolGraph.Declaration.Basic
import PoolGraph.Declaration.Cloner
import PoolGraph.Declaration.Resolve
import PoolGraph.Declaration.Wire
import PoolGraph.Expr.Basic
import PoolGraph.Expr.Json
import PoolGraph.Expr.Parser
import PoolGraph.Expr.Printer
import PoolGraph.Fault
import PoolGraph.Float.Binary64
import PoolGraph.Float.Format
import PoolGraph.Float.Layout
import PoolGraph.Float.Shortest
import PoolGraph.Json
import PoolGraph.Main
import PoolGraph.Numbers
import PoolGraph.Pool
import PoolGraph.Proofs.Binding.Anywhere
import PoolGraph.Proofs.Binding.Bare
import PoolGraph.Proofs.Binding.Building
import PoolGraph.Proofs.Binding.Cases
import PoolGraph.Proofs.Binding.Checking
import PoolGraph.Proofs.Binding.DepthFirst
import PoolGraph.Proofs.Binding.Files
import PoolGraph.Proofs.Binding.Invariant
import PoolGraph.Proofs.Binding.Literals
import PoolGraph.Proofs.Binding.Numerals
import PoolGraph.Proofs.Binding.Once
import PoolGraph.Proofs.Binding.Outcome
import PoolGraph.Proofs.Binding.Reaching
import PoolGraph.Proofs.Binding.Reports
import PoolGraph.Proofs.Binding.Shifting
import PoolGraph.Proofs.Binding.Types
import PoolGraph.Proofs.Binding.Verdict
import PoolGraph.Proofs.CommandLine.Encode
import PoolGraph.Proofs.CommandLine.Files
import PoolGraph.Proofs.Compile.Encodable
import PoolGraph.Proofs.Compile.Faultless
import PoolGraph.Proofs.Compile.Formatting
import PoolGraph.Proofs.Compile.Keywords
import PoolGraph.Proofs.Compile.Refusal
import PoolGraph.Proofs.Compile.RoundTrip
import PoolGraph.Proofs.Compile.Success
import PoolGraph.Proofs.Compile.TypeSafety
import PoolGraph.Proofs.Declaration.Agreement
import PoolGraph.Proofs.Declaration.Assigning
import PoolGraph.Proofs.Declaration.Binding
import PoolGraph.Proofs.Declaration.Cloning
import PoolGraph.Proofs.Declaration.Faithful
import PoolGraph.Proofs.Declaration.Faultless
import PoolGraph.Proofs.Declaration.Filling
import PoolGraph.Proofs.Declaration.Kinds
import PoolGraph.Proofs.Declaration.Leftovers
import PoolGraph.Proofs.Declaration.Legal
import PoolGraph.Proofs.Declaration.Names
import PoolGraph.Proofs.Declaration.References
import PoolGraph.Proofs.Declaration.Region
import PoolGraph.Proofs.Declaration.Reproduction
import PoolGraph.Proofs.Declaration.Resolve
import PoolGraph.Proofs.Except
import PoolGraph.Proofs.Expr.Bare
import PoolGraph.Proofs.Expr.Checked
import PoolGraph.Proofs.Expr.Completeness
import PoolGraph.Proofs.Expr.Furthest
import PoolGraph.Proofs.Expr.Grammar
import PoolGraph.Proofs.Expr.Layout
import PoolGraph.Proofs.Expr.Lookahead
import PoolGraph.Proofs.Expr.Parse
import PoolGraph.Proofs.Expr.Places
import PoolGraph.Proofs.Expr.Printing
import PoolGraph.Proofs.Expr.Soundness
import PoolGraph.Proofs.Expr.Stuck
import PoolGraph.Proofs.Expr.Tiling
import PoolGraph.Proofs.Expr.Tokens
import PoolGraph.Proofs.Expr.Viable
import PoolGraph.Proofs.Float.Range
import PoolGraph.Proofs.Float.Rounding
import PoolGraph.Proofs.LastPart
import PoolGraph.Proofs.Lookup
import PoolGraph.Proofs.Region.Amplification
import PoolGraph.Proofs.Region.Cloning
import PoolGraph.Proofs.Region.Conformance
import PoolGraph.Proofs.Region.CopiedGraph
import PoolGraph.Proofs.Region.CopyTable
import PoolGraph.Proofs.Region.Extension
import PoolGraph.Proofs.Region.Filling
import PoolGraph.Proofs.Region.Lookups
import PoolGraph.Proofs.Region.Objects
import PoolGraph.Proofs.Region.Pools
import PoolGraph.Proofs.Region.Precheck
import PoolGraph.Proofs.Region.Reachable
import PoolGraph.Proofs.Region.References
import PoolGraph.Proofs.Region.Refusing
import PoolGraph.Proofs.Region.Regular
import PoolGraph.Proofs.Region.RoundTrip
import PoolGraph.Proofs.Region.Shifting
import PoolGraph.Proofs.Region.Spelling
import PoolGraph.Proofs.Region.Texts
import PoolGraph.Proofs.Region.Trees
import PoolGraph.Proofs.Region.Truncation
import PoolGraph.Proofs.Region.TypedCopies
import PoolGraph.Proofs.Region.Typing
import PoolGraph.Proofs.Region.WellTyped
import PoolGraph.Proofs.Region.Writing
import PoolGraph.Proofs.Schema.Drafting
import PoolGraph.Proofs.Schema.Growing
import PoolGraph.Proofs.Schema.Names
import PoolGraph.Proofs.Schema.Tables
import PoolGraph.Proofs.Schema.TypeNames
import PoolGraph.Proofs.Schema.WellFormed
import PoolGraph.Proofs.SideBySide
import PoolGraph.Proofs.Source.Characters
import PoolGraph.Proofs.Source.Lines
import PoolGraph.Proofs.Source.Lookahead
import PoolGraph.Proofs.Source.Parser
import PoolGraph.Proofs.Source.Slices
import PoolGraph.Proofs.Source.Walking
import PoolGraph.Proofs.State
import PoolGraph.Proofs.Text.Decimal
import PoolGraph.Proofs.Wire.Buffer
import PoolGraph.Proofs.Wire.Reading
import PoolGraph.Proofs.Wire.Stability
import PoolGraph.Proofs.Wire.VarInt
import PoolGraph.Proofs.Wire.Words
import PoolGraph.Region.Basic
import PoolGraph.Region.Cloner
import PoolGraph.Region.Filling
import PoolGraph.Region.Text
import PoolGraph.Region.Wire
import PoolGraph.Schema.Drafting
import PoolGraph.Schema.Error
import PoolGraph.Schema.FieldType
import PoolGraph.Schema.RegionSchema
import PoolGraph.Schema.Scope
import PoolGraph.Schema.Shape
import PoolGraph.Schema.Text
import PoolGraph.Source.Basic
import PoolGraph.Source.Cursor
import PoolGraph.Source.Diagnostic
import PoolGraph.Source.Lines
import PoolGraph.Source.Parser
import PoolGraph.Source.Window
import PoolGraph.Text.Blank
import PoolGraph.Text.Digits
import PoolGraph.Text.Extending
import PoolGraph.Text.Ignorable
import PoolGraph.Text.Lossy
import PoolGraph.Text.Printable
import PoolGraph.Text.Quoted
import PoolGraph.Text.Ranges
import PoolGraph.Value
import PoolGraph.Value.Text
import PoolGraph.Wire.Buffer
import PoolGraph.Wire.Decode
import PoolGraph.Wire.Encode
import PoolGraph.Wire.Error
import PoolGraph.Wire.LittleEndian
import PoolGraph.Wire.Width
import PoolGraph.Wire.Words
