import TypeGuard.Cli.Arguments
import TypeGuard.Cli.Run
import TypeGuard.Compile
import TypeGuard.Compile.Files
import TypeGuard.Datum.Basic
import TypeGuard.Datum.Descriptor
import TypeGuard.Datum.Program
import TypeGuard.Datum.Ty
import TypeGuard.Descriptor.Basic
import TypeGuard.Descriptor.OfTy
import TypeGuard.Diagnostic.Basic
import TypeGuard.Diagnostic.Code
import TypeGuard.Files.Path
import TypeGuard.Files.Tree
import TypeGuard.Form.Basic
import TypeGuard.Form.Position
import TypeGuard.Form.Reader
import TypeGuard.Form.Token
import TypeGuard.Journal
import TypeGuard.Json.Basic
import TypeGuard.Json.Parser
import TypeGuard.Location
import TypeGuard.Lowering.Basic
import TypeGuard.Lowering.Function
import TypeGuard.Lowering.Module
import TypeGuard.Main
import TypeGuard.Number.Basic
import TypeGuard.Number.Binary64
import TypeGuard.Number.Numeral
import TypeGuard.Number.Shortest
import TypeGuard.Options
import TypeGuard.Proofs.Descriptor.Acceptance
import TypeGuard.Proofs.Descriptor.Encoding
import TypeGuard.Proofs.Descriptor.Library
import TypeGuard.Proofs.Descriptor.Names
import TypeGuard.Proofs.Descriptor.Scope
import TypeGuard.Proofs.Destructuring
import TypeGuard.Proofs.Diagnostics
import TypeGuard.Proofs.Form.Openings
import TypeGuard.Proofs.Form.Positions
import TypeGuard.Proofs.Lowering.Arguments
import TypeGuard.Proofs.Lowering.Capture
import TypeGuard.Proofs.Lowering.Erasure
import TypeGuard.Proofs.Lowering.Failures
import TypeGuard.Proofs.Lowering.Forwarding
import TypeGuard.Proofs.Lowering.Fresh
import TypeGuard.Proofs.Lowering.Generics
import TypeGuard.Proofs.Lowering.Hygiene
import TypeGuard.Proofs.Lowering.Nodes
import TypeGuard.Proofs.Lowering.Origins
import TypeGuard.Proofs.Lowering.Reach
import TypeGuard.Proofs.Lowering.Reference
import TypeGuard.Proofs.Lowering.Shape
import TypeGuard.Proofs.Lowering.Step
import TypeGuard.Proofs.Lowering.Template
import TypeGuard.Proofs.Outcome
import TypeGuard.Proofs.Script.Output
import TypeGuard.Proofs.Script.Printable
import TypeGuard.Proofs.Surface.Places
import TypeGuard.Proofs.Surface.Trees
import TypeGuard.Proofs.Syntax.Nodes
import TypeGuard.Proofs.Value
import TypeGuard.Script.Helper
import TypeGuard.Script.Layout
import TypeGuard.Script.Literal
import TypeGuard.Script.Printer
import TypeGuard.Session
import TypeGuard.Surface.Error
import TypeGuard.Surface.Program
import TypeGuard.Surface.Ty
import TypeGuard.Syntax.Binding
import TypeGuard.Syntax.Primitive
import TypeGuard.Syntax.Program
import TypeGuard.Syntax.Ty
import TypeGuard.Text.Blank
import TypeGuard.Text.Digit
import TypeGuard.Text.Lines
import TypeGuard.Text.Printable
import TypeGuard.Text.Quoted
import TypeGuard.Text.Ranges
import TypeGuard.Text.Utf8
import TypeGuard.Proofs.Lowering.Switches
import TypeGuard.Proofs.Number.Decimal
import TypeGuard.Proofs.Script.Literal
import TypeGuard.Proofs.Script.Reading
import TypeGuard.Proofs.Descriptor.Printing
import TypeGuard.Proofs.Form.Writing
import TypeGuard.Proofs.Form.Names
import TypeGuard.Proofs.Syntax.Unlocated
import TypeGuard.Proofs.Surface.Rendering.Ty
import TypeGuard.Proofs.Surface.Rendering.Program
import TypeGuard.Proofs.Surface.RoundTrip
import TypeGuard.Proofs.Surface.Grammar
import TypeGuard.Proofs.Surface.Trimming.Ty
import TypeGuard.Proofs.Surface.Trimming.Pattern
import TypeGuard.Proofs.Surface.Trimming.Function
import TypeGuard.Proofs.Surface.Trimming.Declaration
import TypeGuard.Proofs.Surface.Trimming.Program
import TypeGuard.Proofs.Descriptor.Rejection
import TypeGuard.Proofs.Script.Indentation
import TypeGuard.Proofs.Lowering.Runs
import TypeGuard.Proofs.Lowering.Search
import TypeGuard.Proofs.Files.Contents
import TypeGuard.Proofs.Cli.Outputs
import TypeGuard.Proofs.Script.Numerals
import TypeGuard.Proofs.Script.Quoting
import TypeGuard.Proofs.Script.Margins
import TypeGuard.Proofs.Script.Weaving
import TypeGuard.Proofs.Script.Printed
import TypeGuard.Proofs.Script.Passages
import TypeGuard.Proofs.Descriptor.Comparisons
import TypeGuard.Proofs.Lowering.Passages
import TypeGuard.Proofs.RawText
import TypeGuard.Proofs.Lowering.Occurrences
