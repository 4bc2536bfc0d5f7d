import CppPrinter.Precedence
import CppPrinter.Ty.Basic
import CppPrinter.Number.Shortest
import CppPrinter.Text.Word
import CppPrinter.Text.Identifier
import CppPrinter.Text.Literal
import CppPrinter.Text.Quoted
import CppPrinter.Expr.Character
import CppPrinter.Class.Basic
import CppPrinter.Error.Message
import CppPrinter.Ty.Spelling
import CppPrinter.Expr.Render
import CppPrinter.Class.Order
import CppPrinter.Class.Definition
import CppPrinter.Program.Resource
import CppPrinter.Output.Artifact
import CppPrinter.Proofs.Order.Correct
import CppPrinter.Proofs.Reading.Operators
import CppPrinter.Proofs.Reading.Tight
import CppPrinter.Proofs.Reading.Statement
import CppPrinter.Proofs.Stmt.Induction
import CppPrinter.Proofs.Class.Page
import CppPrinter.Proofs.Output.Agreement
import CppPrinter.Proofs.Output.Supported
import CppPrinter.Proofs.Output.Completeness
import CppPrinter.Proofs.Resource.Program
import CppPrinter.Proofs.Sharing.Program
import CppPrinter.Proofs.Bracket.Program
import CppPrinter.Proofs.Resource.Identifier
import CppPrinter.Proofs.Output.Outline
import CppPrinter.Proofs.Reading.Decoding
import CppPrinter.Proofs.Mention.Program
import CppPrinter.Proofs.Class.Inheritance
import CppPrinter.Proofs.Reading.TypeReading
import CppPrinter.Proofs.Reading.RawPointer
import CppPrinter.Proofs.Reading.Minimal
import CppPrinter.Proofs.Number.Store
import CppPrinter.Proofs.Line.Frame
import CppPrinter.Proofs.Class.Section
import CppPrinter.Proofs.Order.First
import CppPrinter.Proofs.Stmt.Case
import CppPrinter.Proofs.Reading.Integer
import CppPrinter.Proofs.Number.Conditional
import CppPrinter.Proofs.Reading.Character
import CppPrinter.Proofs.Receiver.Expr
import CppPrinter.Proofs.Body.Single
import CppPrinter.Proofs.Expr.Position
import CppPrinter.Proofs.Output.Files
import CppPrinter.Proofs.Class.Naming
import CppPrinter.Proofs.Reading.Decay
