/-!
# Lines of text

Statements and declarations are laid out as lines, each with its depth below the place where they
are written. Depth turns into tabs when a line is placed.
-/

namespace CppPrinter

/-- One line. -/
inductive Line where
  /-- An empty line, which takes no indentation. -/
  | blank
  | code (depth : Nat) (text : String)
  deriving DecidableEq, Repr

namespace Line

/-- The line at the depth of its surroundings. -/
def flush (text : String) : Line := .code 0 text

/-- The line, deeper by one step. -/
def indent : Line → Line
  | blank => blank
  | code depth text => code (depth + 1) text

/-- The characters of the line below a depth, its end included. -/
def place (depth : Nat) : Line → List Char
  | blank => ['\n']
  | code below text => List.replicate (depth + below) '\t' ++ text.toList ++ ['\n']

end Line

/-- Lines deeper by one step. -/
def indented (lines : List Line) : List Line := lines.map Line.indent

/-- A brace block around lines. -/
def braced (lines : List Line) : List Line :=
  .flush "\x7b" :: (indented lines ++ [Line.flush "\x7d"])

end CppPrinter
