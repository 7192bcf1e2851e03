import LittleLisp.Builtin
import LittleLisp.C.Expr
import LittleLisp.C.Name
import LittleLisp.Command.Dispatch
import LittleLisp.Command.Flag
import LittleLisp.Command.Grid
import LittleLisp.Command.Offer
import LittleLisp.Command.Perform
import LittleLisp.Command.Program
import LittleLisp.Definition
import LittleLisp.Fault
import LittleLisp.FileTree
import LittleLisp.Inference
import LittleLisp.Json
import LittleLisp.Json.Printer
import LittleLisp.Json.Reader
import LittleLisp.Json.Shape
import LittleLisp.Json.Token
import LittleLisp.Location
import LittleLisp.Lowering
import LittleLisp.Main
import LittleLisp.Path
import LittleLisp.Proofs.C.Lexeme
import LittleLisp.Proofs.C.Meaning
import LittleLisp.Proofs.C.Mention
import LittleLisp.Proofs.C.Name
import LittleLisp.Proofs.C.Term
import LittleLisp.Proofs.Lowering.Capture
import LittleLisp.Proofs.Lowering.Closed
import LittleLisp.Proofs.Lowering.Meaning
import LittleLisp.Proofs.Lowering.Relation
import LittleLisp.Proofs.Lowering.Unit
import LittleLisp.Proofs.Lowering.Use
import LittleLisp.Proofs.Source.Decoding
import LittleLisp.Proofs.Source.Place
import LittleLisp.Proofs.Source.Utf8
import LittleLisp.Proofs.SymbolTable.Sound
import LittleLisp.Proofs.Text.Literal
import LittleLisp.Proofs.Text.Case
import LittleLisp.Proofs.Text.Numeral
import LittleLisp.Proofs.Token.Scan
import LittleLisp.Proofs.Tree.Grammar
import LittleLisp.Proofs.Tree.Induction
import LittleLisp.Proofs.Tree.RoundTrip
import LittleLisp.Proofs.Tree.WellFormed
import LittleLisp.Proofs.Validation.Scope
import LittleLisp.Record
import LittleLisp.Report
import LittleLisp.Server.Answer
import LittleLisp.Server.Diagnostic
import LittleLisp.Server.Document
import LittleLisp.Server.Framing
import LittleLisp.Server.Range
import LittleLisp.Server.Request
import LittleLisp.Server.Session
import LittleLisp.Server.State
import LittleLisp.Settings
import LittleLisp.Settings.OfToml
import LittleLisp.Settings.Search
import LittleLisp.Sorting
import LittleLisp.Source
import LittleLisp.SymbolTable
import LittleLisp.SymbolTable.OfForms
import LittleLisp.Terminal
import LittleLisp.Text.Blank
import LittleLisp.Text.Case
import LittleLisp.Text.Cluster
import LittleLisp.Text.Digit
import LittleLisp.Text.Hex
import LittleLisp.Text.Letter
import LittleLisp.Text.Literal
import LittleLisp.Text.Printable
import LittleLisp.Text.Quoted
import LittleLisp.Text.Ranges
import LittleLisp.Text.Width
import LittleLisp.Token
import LittleLisp.Token.Lexer
import LittleLisp.Toml
import LittleLisp.Toml.Document
import LittleLisp.Toml.Number
import LittleLisp.Toml.Quote
import LittleLisp.Toml.Reader
import LittleLisp.Tree
import LittleLisp.Tree.Defun
import LittleLisp.Tree.Outline
import LittleLisp.Tree.Printer
import LittleLisp.Tree.Reader
import LittleLisp.Unit
import LittleLisp.Uri
import LittleLisp.Uri.Byte
import LittleLisp.Uri.Literal
import LittleLisp.Validation
import LittleLisp.ValueType
import LittleLisp.ValueType.Code
import LittleLisp.Proofs.Inference.Stage
import LittleLisp.Proofs.ValueType.Order
import LittleLisp.Proofs.Inference.Acyclic
import LittleLisp.Proofs.Inference.Params
import LittleLisp.Proofs.Inference.Results
import LittleLisp.Proofs.Inference.DirectRecursion
import LittleLisp.Proofs.Inference.Settling
import LittleLisp.Proofs.Inference.Flow
import LittleLisp.Proofs.Inference.Productive
import LittleLisp.Proofs.Validation.Sites
import LittleLisp.Proofs.Unit.Faults
import LittleLisp.Proofs.Inference.Range
import LittleLisp.Proofs.Unit.TypeRange
import LittleLisp.Proofs.SymbolTable.Listing
import LittleLisp.Proofs.Lowering.Refusal
import LittleLisp.Proofs.Inference.Locality
import LittleLisp.Proofs.SymbolTable.Permutation
import LittleLisp.Proofs.Unit.Order
import LittleLisp.Proofs.Token.Step
import LittleLisp.Proofs.Token.Partition
import LittleLisp.Proofs.Tree.Composition
import LittleLisp.Proofs.Unit.Places
import LittleLisp.Proofs.Tree.Places
import LittleLisp.Proofs.Report.Excerpt
import LittleLisp.Proofs.Server.Documents
import LittleLisp.Proofs.Server.History
import LittleLisp.Proofs.FileTree.Creation
import LittleLisp.Proofs.Command.Overwriting
import LittleLisp.Proofs.C.Literal
import LittleLisp.Proofs.Token.Order
import LittleLisp.Proofs.Server.Definition
import LittleLisp.Proofs.Server.Parameter
import LittleLisp.Proofs.SymbolTable.LetterCase
import LittleLisp.Proofs.Unit.LetterCase
import LittleLisp.Proofs.Terminal.Strip
import LittleLisp.Proofs.Report.Caret
import LittleLisp.Proofs.Token.Extent
import LittleLisp.Proofs.Tree.Extent
import LittleLisp.Proofs.Server.Range
import LittleLisp.Proofs.Sorting.Rearrangement
import LittleLisp.Proofs.Sorting.Insertion
import LittleLisp.Proofs.Sorting.Heap
import LittleLisp.Proofs.Sorting.Partition
import LittleLisp.Proofs.Sorting.Sorted
import LittleLisp.Proofs.Server.Symbols
import LittleLisp.Proofs.C.Spelling
import LittleLisp.Proofs.FileTree.Ancestry
import LittleLisp.Proofs.Settings.Search
import LittleLisp.Proofs.Token.Numeral
import LittleLisp.Proofs.Inference.Join
