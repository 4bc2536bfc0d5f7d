import CppPrinter.Class.Enumeration
import CppPrinter.Text.Identifier

/-!
# The table of resources

Every resource becomes an array of bytes inside a nameless namespace of the source, declared before
the classes and defined behind them, in the order of the names.
-/

namespace CppPrinter

/-- The array of a resource, with as many elements as there are bytes. -/
def resourceDeclaration (name : String) (bytes : List UInt8) : String :=
  "const std::array<uint8_t, " ++ toString bytes.length ++ "> " ++ sanitizeIdentifier name

/-- The most bytes on one line. -/
def bytesPerLine : Nat := 16

/-- A list cut into pieces of a positive `width`, the last of which may be shorter. -/
def chunks {α : Type} (width : Nat) : List α → List (List α)
  | [] => []
  | x :: rest => (x :: rest.take (width - 1)) :: chunks width (rest.drop (width - 1))
termination_by xs => xs.length
decreasing_by simp only [List.length_drop, List.length_cons]; omega

/-- The pieces hold the list and nothing else. -/
theorem flatten_chunks {α : Type} (width : Nat) (xs : List α) : (chunks width xs).flatten = xs := by
  fun_induction chunks width xs with
  | case1 => rfl
  | case2 x rest ih => rw [List.flatten_cons, ih, List.cons_append, List.take_append_drop]

/-- Bytes in decimal, separated by commas. -/
def byteLine (bytes : List UInt8) : String := ", ".intercalate (bytes.map toString)

/-- The lines that define one resource. -/
def resourceDefinition (name : String) (bytes : List UInt8) : List Line :=
  .flush (resourceDeclaration name bytes ++ " = \x7b") ::
    (indented (commaLines ((chunks bytesPerLine bytes).map byteLine)) ++ [Line.flush "\x7d;"])

/-- Lines inside the namespaces of the resource table. -/
def inResourceNamespace (body : List Line) : List Line :=
  [Line.blank, .flush "namespace"] ++ braced (.flush ("namespace " ++ resourceNamespace) :: braced body)

namespace ResourceTable

/-- The declarations of all resources, or nothing if there are none. -/
def declarationLines (t : ResourceTable) : List Line :=
  if t.isEmpty then []
  else inResourceNamespace (t.toList.map fun r =>
    .flush ("extern " ++ resourceDeclaration r.1 r.2 ++ ";"))

/-- The definitions of all resources, or nothing if there are none. -/
def definitionLines (t : ResourceTable) : List Line :=
  if t.isEmpty then []
  else inResourceNamespace (t.toList.flatMap fun r => resourceDefinition r.1 r.2)

end ResourceTable

end CppPrinter
