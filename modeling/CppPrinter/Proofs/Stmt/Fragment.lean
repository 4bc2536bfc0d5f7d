import CppPrinter.Layout.Line

/-!
# Laid-out statements

A statement laid out on lines can stand by itself in a list of statements, or below a header such
as `while (x)`. Below a header, a brace block opens on the header's line and its closing brace
waits for what follows (`else`, `while`); any other statement goes on lines of its own, one step
deeper. After `else`, another conditional continues on the same line.
-/

namespace CppPrinter

/-- A statement on lines, with as much of its kind as its surroundings ask for. -/
inductive Fragment where
  /-- A brace block around lines. -/
  | block (body : List Line)
  /-- A conditional with its first line apart. -/
  | conditional (first : String) (rest : List Line)
  /-- The line that declares a local variable. -/
  | declaration (text : String)
  /-- The lines of any other statement. -/
  | plain (lines : List Line)
  deriving Repr

namespace Fragment

/-- The lines of a statement that stands by itself. -/
def lines : Fragment → List Line
  | block body => braced body
  | conditional first rest => .flush first :: rest
  | declaration text => [.flush text]
  | plain lines => lines

/-- The statement declares a local variable. -/
def isDeclaration : Fragment → Bool
  | declaration _ => true
  | _ => false

/-- The statement is a brace block. -/
def isBlock : Fragment → Bool
  | block _ => true
  | _ => false

/-- The header's line, with the brace that opens a block below it. -/
def headed (header : String) : Fragment → String
  | block _ => header ++ " \x7b"
  | _ => header

/-- The lines below a header, except for the closing brace of a block. -/
def inner : Fragment → List Line
  | block body => indented body
  | f => indented f.lines

/-- The line that closes a block with nothing to follow. -/
def closing : Fragment → List Line
  | block _ => [.flush "\x7d"]
  | _ => []

/-- What follows the statement below a header, behind the closing brace of a block. -/
def followedBy (next : String) : Fragment → String
  | block _ => "\x7d " ++ next
  | _ => next

/-- The statement below a header, with nothing to follow. -/
def under (header : String) (f : Fragment) : List Line :=
  .flush (f.headed header) :: (f.inner ++ f.closing)

/-- The statement as the alternative behind the text `lead`, which ends in `else`. -/
def asElse (lead : String) : Fragment → List Line
  | conditional first rest => .flush (lead ++ " " ++ first) :: rest
  | f => f.under lead

/-- A conditional, with or without an alternative. -/
def ofBranch (header : String) (positive : Fragment) : Option Fragment → Fragment
  | none => conditional (positive.headed header) (positive.inner ++ positive.closing)
  | some negative =>
    conditional (positive.headed header)
      (positive.inner ++ negative.asElse (positive.followedBy "else"))

/-- A loop whose condition stands behind its body. -/
def ofDoLoop (body : Fragment) (condition : String) : Fragment :=
  plain (.flush (body.headed "do") :: (body.inner ++ [Line.flush (body.followedBy condition)]))

/-- The statements of one case of a switch. Everything from the first local variable on goes into a
block, which ends the scope of the variable with the case. -/
def caseLines (fs : List Fragment) : List Line :=
  let before := fs.takeWhile (!·.isDeclaration)
  let declared := fs.dropWhile (!·.isDeclaration)
  before.flatMap lines ++ if declared.isEmpty then [] else braced (declared.flatMap lines)

/-- The statements of one case of a switch, below its labels. -/
def caseBody (fs : List Fragment) : List Line := indented (caseLines fs)

variable {f : Fragment}

theorem caseLines_declared (h : f.isDeclaration = true) (fs : List Fragment) :
    caseLines (f :: fs) = braced ((f :: fs).flatMap lines) := by
  simp [caseLines, h]

theorem caseLines_other (h : f.isDeclaration = false) (fs : List Fragment) :
    caseLines (f :: fs) = f.lines ++ caseLines fs := by
  simp [caseLines, h]

theorem caseBody_declared (h : f.isDeclaration = true) (fs : List Fragment) :
    caseBody (f :: fs) = indented (braced ((f :: fs).flatMap lines)) := by
  rw [caseBody, caseLines_declared h]

theorem caseBody_other (h : f.isDeclaration = false) (fs : List Fragment) :
    caseBody (f :: fs) = indented f.lines ++ caseBody fs := by
  rw [caseBody, caseLines_other h, indented, List.map_append, caseBody, indented, indented]

end Fragment

end CppPrinter
