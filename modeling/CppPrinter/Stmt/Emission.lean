import CppPrinter.Layout.Writer
import CppPrinter.Stmt.Declaration

/-!
# Writing statements

A statement is written step by step. It may stand by itself, or below a header such as `while (x)` whose
line is still open (`Spot`). Below a header, a brace block opens on the header's line and leaves the line
of its closing brace open for what follows (`else`, `while`); any other statement goes on lines of its
own, one step deeper. Behind an `else`, another conditional continues on the same line. In a case of a
switch, a block is opened in front of the first local variable and closed behind the last statement, which
ends the scope of the variable with the case.

A returned value is converted to the return type of the method that is being written, if there is one.
Scalar constants take no line: their values are folded into their uses.
-/

namespace CppPrinter

namespace Env

variable (env : Env)

/-- The head of a loop with a start: a declaration, an expression, or nothing. -/
def loopStart : Option (Stmt ExprId) → Rendered String
  | none => .ok ""
  | some (.declare name ty value) => env.declare name ty value
  | some (.evaluate value) => env.plain value
  | some start => unsupported (.loopStart start)

/-- An optional part of the head of a loop, with the space before it. -/
def headPart : Option ExprId → Rendered String
  | none => .ok ""
  | some id => do return " " ++ (← env.plain id)

/-- A returned value, converted to the return type in force. -/
def returned (returnType : Option Ty) (id : ExprId) : Rendered String :=
  match returnType with
  | some ty => env.coerced ty id
  | none => env.plain id

end Env

namespace Emit

/-- Where a statement is written. -/
inductive Spot where
  /-- On lines of its own. -/
  | alone
  /-- Behind a header, whose line is open. -/
  | child
  /-- Behind an `else`, whose line is open. Nothing follows on the last line. -/
  | alternative
  deriving DecidableEq, Repr

/-- Writes a brace block from the open line of a header on, and leaves the line of the closing brace
open. -/
def trailingBlock (body : Emit Unit) : Emit Unit := do
  write " \x7b"
  endLine
  deeper body
  startLine
  write "\x7d"

/-- Writes a brace block. -/
def block (body : Emit Unit) : Spot → Emit Unit
  | .alone => inBlock body
  | .child => trailingBlock body
  | .alternative => do
    trailingBlock body
    endLine

/-- Writes a conditional, given from its `if` on. -/
def conditional (chain : Emit Unit) : Spot → Emit Unit
  | .alone => do
    startLine
    chain
  | .child => do
    endLine
    deeper do
      startLine
      chain
  | .alternative => do
    write " "
    chain

/-- Writes any other statement. -/
def ownLines (piece : Emit Unit) : Spot → Emit Unit
  | .alone => piece
  | .child | .alternative => do
    endLine
    deeper piece

/-- Ends the line that a statement below a header left open. -/
def finish (child : Stmt ExprId) : Emit Unit := if child.isBlock then endLine else pure ()

/-- Writes a text behind a statement below a header: on the line that a block left open, or at the start of
a line. The line stays open. -/
def follow (child : Stmt ExprId) (text : String) : Emit Unit :=
  if child.isBlock then write (" " ++ text)
  else do
    startLine
    write text

/-- Writes a local constant. Only arrays need storage. -/
def localConstant (env : Env) (name : String) (ty : Ty) (value : ExprId) : Emit Unit :=
  if ty.isArrayStorage then do line (← ofRendered (env.constant name ty value)) else pure ()

/-- Writes a returned value. -/
def returnLine (env : Env) (value : ExprId) : Emit Unit := do
  let w ← get
  let text ← ofRendered (env.returned w.returnType? value)
  line ("return " ++ text ++ ";")

/-- Writes the labels of one case of a switch. -/
def caseLabels (env : Env) (labels : List ExprId) : Emit Unit :=
  labels.forM fun id => do line ("case " ++ (← ofRendered (env.plain id)) ++ ":")

mutual

/-- Writes a statement where it stands. -/
def statementAt (env : Env) : Stmt ExprId → Spot → Emit Unit
  | .block body => block (statements env body)
  | .declare name ty value => ownLines do
    line ((← ofRendered (env.declare name ty value)) ++ ";")
  | .constant name ty value => ownLines (localConstant env name ty value)
  | .evaluate value => ownLines do line ((← ofRendered (env.plain value)) ++ ";")
  | .ret none => ownLines (line "return;")
  | .ret (some value) => ownLines (returnLine env value)
  | .branch test positive negative => conditional do
    write ("if (" ++ (← ofRendered (env.plain test)) ++ ")")
    statementAt env positive .child
    alternative env positive negative
  | .whileLoop test body => ownLines do
    let condition ← ofRendered (env.plain test)
    startLine
    write ("while (" ++ condition ++ ")")
    statementAt env body .child
    finish body
  | .doLoop body test => ownLines do
    startLine
    write "do"
    statementAt env body .child
    let condition ← ofRendered (env.plain test)
    follow body ("while (" ++ condition ++ ");")
    endLine
  | .forLoop start test advance body => ownLines do
    let first ← ofRendered (env.loopStart start)
    let condition ← ofRendered (env.headPart test)
    let step ← ofRendered (env.headPart advance)
    startLine
    write ("for (" ++ first ++ ";" ++ condition ++ ";" ++ step ++ ")")
    statementAt env body .child
    finish body
  | .breakLoop => ownLines (line "break;")
  | .continueLoop => ownLines (line "continue;")
  | .switch value cases otherwise => ownLines do
    line ("switch (" ++ (← ofRendered (env.plain value)) ++ ") \x7b")
    switchCases env cases
    defaultCase env otherwise
    line "\x7d"
  | .throwing _ => ownLines (line "throw std::exception();")

/-- Writes the alternative of a conditional behind its first branch, if there is one. -/
def alternative (env : Env) (positive : Stmt ExprId) : Option (Stmt ExprId) → Emit Unit
  | none => finish positive
  | some negative => do
    follow positive "else"
    statementAt env negative .alternative

/-- Writes statements one after the other. -/
def statements (env : Env) : List (Stmt ExprId) → Emit Unit
  | [] => pure ()
  | s :: rest => do
    statementAt env s .alone
    statements env rest

/-- Writes the cases of a switch. -/
def switchCases (env : Env) : List (List ExprId × List (Stmt ExprId)) → Emit Unit
  | [] => pure ()
  | (labels, body) :: rest => do
    caseLabels env labels
    deeper (caseStatements env body false)
    switchCases env rest

/-- Writes the statements for all other values of a switch. -/
def defaultCase (env : Env) : Option (List (Stmt ExprId)) → Emit Unit
  | none => pure ()
  | some body => do
    line "default:"
    deeper (caseStatements env body false)

/-- Writes the statements of a case, of which a part may already stand in an open block. -/
def caseStatements (env : Env) : List (Stmt ExprId) → (inBlock : Bool) → Emit Unit
  | [], inBlock => if inBlock then update Writer.closeBlock else pure ()
  | s :: rest, inBlock => do
    if !inBlock && s.isVariable then update Writer.openBlock
    statementAt env s .alone
    caseStatements env rest (inBlock || s.isVariable)

end

/-- Writes one statement below the current depth. -/
def statement (env : Env) (s : Stmt ExprId) : Emit Unit := statementAt env s .alone

end Emit

end CppPrinter
