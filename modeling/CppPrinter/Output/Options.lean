import CppPrinter.Output.Path

/-!
# Options of printing

A program is printed into a source file and a header beside it, whose path follows from that of the
source. Both can be wrapped into a namespace.
-/

namespace CppPrinter

/-- What to print a program into. -/
structure Options where
  /-- The namespace around all declarations, if any. -/
  namespaceName : Option String := none
  /-- The path of the source file. -/
  sourcePath : String := "out.cpp"
  deriving DecidableEq, Repr

namespace Options

/-- The path of the header: that of the source with the extension `hpp`. -/
def headerPath (o : Options) : String :=
  String.ofList (Path.withExtension "hpp".toList o.sourcePath.toList)

/-- The name by which the source includes the header: its file name, or its whole path if it names
no file. -/
def headerName (o : Options) : String :=
  match Path.fileName? o.headerPath.toList with
  | some name => String.ofList name
  | none => o.headerPath

end Options

end CppPrinter
