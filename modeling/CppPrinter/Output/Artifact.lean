import CppPrinter.Class.Definition
import CppPrinter.Class.Enumeration
import CppPrinter.Class.Order
import CppPrinter.Output.Options
import CppPrinter.Program.Resource

/-!
# The header and the source of a program

The header declares enumerations and classes, the classes first by name and then by definition in
an order that respects their dependencies. The source defines constructors and methods in the
order of the program, between the declarations and the definitions of the resources. Both are
printed or none is (`Program.print`).
-/

namespace CppPrinter

/-- The two files that a program is printed into. -/
structure Artifacts where
  headerPath : String
  header : String
  sourcePath : String
  source : String
  deriving DecidableEq, Repr

/-- The standard headers that the header needs. -/
def headerIncludes : List String := ["array", "memory", "string", "string_view"]

/-- The standard headers that the source needs besides. -/
def sourceIncludes : List String := ["algorithm", "cmath"]

/-- The inclusion of a standard header. -/
def includeLine (name : String) : Line := .flush ("#include <" ++ name ++ ">")

namespace Options

/-- The lines that open the namespace, if there is one. -/
def opening (o : Options) : List Line :=
  match o.namespaceName with
  | some name => [.blank, .flush ("namespace " ++ name), .flush "\x7b"]
  | none => []

/-- The line that closes the namespace, if there is one. -/
def closing (o : Options) : List Line :=
  match o.namespaceName with
  | some _ => [.flush "\x7d"]
  | none => []

end Options

namespace Program

variable (p : Program)

/-- The classes by name alone, below an empty line if there are any. -/
def forwardLines : List Line :=
  if p.classes.isEmpty then []
  else .blank :: p.classes.toList.map fun c => .flush ("class " ++ c.name ++ ";")

/-- The definition of the class at a position. -/
def classLines (id : ClassId) : Rendered (List Line) := do
  (← p.class? id).declarationLines p.env

/-- Everything that the header declares. -/
def declarationLines : Rendered (List Line) := do
  let order ← classOrder p.classes
  let enums ← p.enums.toList.mapM (Enum.declarationLines p.env)
  let classes ← order.mapM p.classLines
  return enums.flatten ++ p.forwardLines ++ classes.flatten

/-- Writes the header. -/
def emitHeader (o : Options) : Emit Unit := do
  let declarations ← Emit.ofRendered p.declarationLines
  Emit.lines (.flush "#pragma once" :: headerIncludes.map includeLine)
  Emit.lines (o.opening ++ declarations ++ o.closing)

/-- Writes the source. -/
def emitSource (o : Options) : Emit Unit := do
  Emit.lines (sourceIncludes.map includeLine)
  Emit.lines [.flush ("#include \"" ++ o.headerName ++ "\""),
    .flush "using namespace std::string_view_literals;"]
  Emit.lines p.resources.declarationLines
  Emit.lines o.opening
  p.classes.toList.forM (Emit.classDefinitions p.env)
  Emit.lines o.closing
  Emit.lines p.resources.definitionLines

/-- The text of the header. -/
def header (o : Options) : Rendered String := Emit.textOf (p.emitHeader o)

/-- The text of the source. -/
def source (o : Options) : Rendered String := Emit.textOf (p.emitSource o)

/-- Prints a program. The header comes first, so that its errors win. -/
def print (o : Options) : Rendered Artifacts := do
  let header ← p.header o
  let source ← p.source o
  return ⟨o.headerPath, header, o.sourcePath, source⟩

end Program

end CppPrinter
