import CppPrinter.Class.Scope
import CppPrinter.Ty.IntKind

/-!
# Spelling of types

The text of a type, and of a declaration that gives a name to it. Declared names always take the
promoted width of an integer; inside an array the declared width stays.
-/

namespace CppPrinter

/-- The pointer to elements spelled `element`. -/
def Ownership.arrayPtrText (element : String) : Ownership → String
  | readOnly => element ++ " const *"
  | writable => element ++ " *"
  | shared => "std::shared_ptr<" ++ element ++ "[]>"

/-- The pointer to a class. -/
def Ownership.classPtrText (name : String) : Ownership → String
  | readOnly => "const " ++ name ++ " *"
  | writable => name ++ " *"
  | shared => "std::shared_ptr<" ++ name ++ ">"

def StringKind.spelling : StringKind → String
  | view => "std::string_view"
  | owned => "std::string"

/-- The text of a type; an integer at the top is promoted on demand. -/
def Ty.spelling (scope : Scope) (promote : Bool) : Ty → Rendered String
  | void => .ok "void"
  | bool => .ok "bool"
  | integer int => do return ((← IntKind.of int).promotedIf promote).spelling
  | float => .ok "float"
  | double | floatInt => .ok "double"
  | string kind => .ok kind.spelling
  | arrayPtr ownership element => do return ownership.arrayPtrText (← element.spelling scope false)
  | arrayStorage element length => do
    return "std::array<" ++ (← element.spelling scope false) ++ ", " ++ toString length ++ ">"
  | classPtr ownership pointee => do return ownership.classPtrText (← scope.className pointee)
  | classValue stored => scope.className stored
  | enum enumeration => scope.enumName enumeration
  | null => unsupported .nullType

/-- A name behind the text of its type. A pointer's star touches the name. -/
def declarator (ty name : String) : String :=
  if ty.toList.getLast? = some '*' then ty ++ name else ty ++ " " ++ name

/-- The declaration of a name. -/
def Ty.declaration (scope : Scope) (ty : Ty) (name : String) : Rendered String := do
  return declarator (← ty.spelling scope true) name

end CppPrinter
