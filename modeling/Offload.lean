import Offload.Text.Basic
import Offload.Text.CodePoint
import Offload.Text.Hidden
import Offload.Text.Blank
import Offload.Text.Bracket
import Offload.Text.Numeral
import Offload.Text.Order
import Offload.Text.Layout
import Offload.Text.Writer
import Offload.Identifier.Ranges
import Offload.Text.NameSet
import Offload.Text.Literal
import Offload.Identifier
import Offload.Identifier.Occurrence
import Offload.Span
import Offload.Source.Line
import Offload.Source
import Offload.Source.Extent
import Offload.Clause.Kind
import Offload.Directive.Kind
import Offload.Text.Quoted
import Offload.Clause.Value
import Offload.Clause.Set
import Offload.Directive
import Offload.Error
import Offload.Logged
import Offload.Pragma.Line
import Offload.Pragma.Token
import Offload.Pragma
import Offload.Region
import Offload.Loop.Header
import Offload.Loop.Nest
import Offload.Clause.Written
import Offload.Clause.Argument
import Offload.Clause.Dump
import Offload.Clause.Reader
import Offload.Directive.Tree
import Offload.Function
import Offload.Target.Body
import Offload.Target.Controls
import Offload.Target
import Offload.Backend
import Offload.Backend.Host.Control
import Offload.Backend.Host.LoopNest
import Offload.Backend.Host.Lock
import Offload.Backend.Host.Kernel
import Offload.Backend.Host
import Offload.Config
import Offload.Directive.Parser
import Offload.Compile
import Offload.Json
import Offload.Json.Printer
import Offload.Json.Reader
import Offload.Clause.Encoding
import Offload.Directive.Encoding
import Offload.Config.Encoding
import Offload.CommandLine.Options
import Offload.CommandLine.Report
import Offload.CommandLine.Directory
import Offload.CommandLine
import Offload.Main
import Offload.Proofs.Outcome
import Offload.Proofs.Tree
import Offload.Proofs.Nesting
import Offload.Proofs.Growth
import Offload.Proofs.Refusal
import Offload.Proofs.Enclosure
import Offload.Proofs.Extent
import Offload.Proofs.Carry
import Offload.Proofs.Insertion
import Offload.Proofs.Header
import Offload.Proofs.Nest
import Offload.Proofs.Reading
import Offload.Proofs.Renumbering
import Offload.Proofs.Trivia
import Offload.Proofs.Comment
import Offload.Proofs.Change
import Offload.Proofs.Patch
import Offload.Proofs.Tiling
import Offload.Proofs.Lock
import Offload.Proofs.Control
import Offload.Proofs.Layout
import Offload.Proofs.Origin
import Offload.Proofs.Kernel
import Offload.Proofs.Jump
import Offload.Proofs.Capture
import Offload.Proofs.Soundness
import Offload.Proofs.Sizes
import Offload.Proofs.Detached
import Offload.Proofs.Entry
import Offload.Proofs.History
import Offload.Proofs.Dispatch
import Offload.Proofs.Preorder
import Offload.Proofs.Crossing
import Offload.Proofs.Bracket
import Offload.Proofs.Gathering
import Offload.Proofs.Argument
import Offload.Proofs.Reprint
import Offload.Proofs.Roundtrip
import Offload.Proofs.Annotation
import Offload.Proofs.Supply
import Offload.Proofs.Launch
import Offload.Proofs.Block
import Offload.Proofs.Complaint
import Offload.Proofs.Compound
import Offload.Proofs.Blame
import Offload.Proofs.Encoding
import Offload.Proofs.Scope
import Offload.Proofs.Replacement
import Offload.Proofs.Inline
import Offload.Proofs.Indentation
import Offload.Proofs.Route
import Offload.Proofs.Token
import Offload.Proofs.Revisit
import Offload.Proofs.Encloser
import Offload.Proofs.Lexer
import Offload.Proofs.Expression
import Offload.Proofs.Heading
import Offload.Proofs.Countable
import Offload.Proofs.Margin
import Offload.Proofs.Parameter
import Offload.Proofs.Repetition
import Offload.Proofs.Signature
import Offload.Proofs.Unpacking
import Offload.Proofs.Rejoining
import Offload.Proofs.Occurrence
import Offload.Directive.Arena
import Offload.Proofs.Arena
