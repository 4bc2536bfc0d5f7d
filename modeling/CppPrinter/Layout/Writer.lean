import CppPrinter.Class.Basic
import CppPrinter.Error.Basic
import CppPrinter.Layout.Line

/-!
# Writing text

A `Writer` is the text written so far, the depth at which the next line stands, and the method
whose body is being written, which decides to what type a returned value is converted. `Emit` is
the monad of writing: an error keeps no text.
-/

namespace CppPrinter

/-- The state of writing. -/
structure Writer where
  text : String := ""
  depth : Nat := 0
  method : Option Signature := none

namespace Writer

/-- Makes the following lines deeper by one step. -/
def indent (w : Writer) : Writer := { w with depth := w.depth + 1 }

/-- Makes the following lines shallower by one step; nothing is shallower than the margin. -/
def dedent (w : Writer) : Writer := { w with depth := w.depth - 1 }

/-- Writes text into the current line. -/
def write (text : String) (w : Writer) : Writer := { w with text := w.text ++ text }

/-- Writes the tabs at the start of a line. -/
def writeIndent (w : Writer) : Writer := w.write (String.ofList (List.replicate w.depth '\t'))

/-- Ends the current line. -/
def newline (w : Writer) : Writer := w.write "\n"

/-- Writes a line below the current depth. -/
def place (line : Line) (w : Writer) : Writer := w.write (String.ofList (line.place w.depth))

/-- Writes a whole line at the current depth. -/
def writeLine (text : String) (w : Writer) : Writer := (w.writeIndent.write text).newline

/-- Opens a brace block. -/
def openBlock (w : Writer) : Writer := (w.writeLine "\x7b").indent

/-- Closes a brace block. -/
def closeBlock (w : Writer) : Writer := w.dedent.writeLine "\x7d"

/-- Starts the body of a method. -/
def enterMethod (method : Signature) (w : Writer) : Writer := { w with method := some method }

/-- Ends the body of a method. -/
def leaveMethod (w : Writer) : Writer := { w with method := none }

/-- Takes the text written so far away. -/
def take (w : Writer) : String × Writer := (w.text, { w with text := "" })

/-- The type to which a returned value is converted. -/
def returnType? (w : Writer) : Option Ty := w.method.map Signature.returnType

end Writer

/-- Writing that may end in an error. -/
abbrev Emit := ExceptT RenderError (StateM Writer)

namespace Emit

/-- Changes the state of writing. -/
def update (change : Writer → Writer) : Emit Unit := modify change

/-- Writes text into the current line. -/
def write (text : String) : Emit Unit := update (Writer.write text)

/-- Starts a line with the tabs of the current depth. -/
def startLine : Emit Unit := update Writer.writeIndent

/-- Ends the current line. -/
def endLine : Emit Unit := update Writer.newline

/-- Writes a whole line at the current depth. -/
def line (text : String) : Emit Unit := update (Writer.writeLine text)

/-- Writes lines below the current depth. -/
def lines (ls : List Line) : Emit Unit := ls.forM fun l => update (Writer.place l)

/-- Writes deeper by one step. -/
def deeper (body : Emit Unit) : Emit Unit := do
  update Writer.indent
  body
  update Writer.dedent

/-- Writes inside a brace block. -/
def inBlock (body : Emit Unit) : Emit Unit := do
  update Writer.openBlock
  body
  update Writer.closeBlock

/-- Takes over a result. -/
def ofRendered {α : Type} (result : Rendered α) : Emit α := ExceptT.mk (pure result)

/-- The text written from the start. -/
def textOf (body : Emit Unit) : Rendered String :=
  match (ExceptT.run body).run {} with
  | (.ok (), w) => .ok w.take.1
  | (.error e, _) => .error e

/-- Writes the body of a method. The method is left again even when an error ends its body. -/
def inMethod (method : Signature) (body : Emit Unit) : Emit Unit := do
  update (Writer.enterMethod method)
  let result ← ExceptT.lift (ExceptT.run body)
  update Writer.leaveMethod
  ofRendered result

end Emit

end CppPrinter
