import CppPrinter.Class.Scope
import CppPrinter.Expr.Operand
import CppPrinter.Text.Identifier
import CppPrinter.Text.Word

/-!
# Calls

A call of a method of the program names its object and converts every argument to the type of its
parameter. Methods of the library become calls of the standard library of the printed language:
string queries become `find`, `rfind` and their kin, copying becomes `std::copy_n`, decoding a
view over the bytes, and mathematical functions keep their names in lowercase.
-/

namespace CppPrinter

variable {ρ : Type} [Viewable ρ]

/-- Operands converted to the types of their parameters as far as there are any, in order. -/
def argumentTexts : List Ty → List (Operand ρ) → Rendered (List String)
  | _, [] => .ok []
  | [], arg :: args => do
    let text ← arg.plain .argument
    return text :: (← argumentTexts [] args)
  | ty :: params, arg :: args => do
    let text ← arg.coerced ty .argument
    return text :: (← argumentTexts params args)

/-- A list of arguments. -/
def argumentsText (params : List Ty) (args : List (Operand ρ)) : Rendered String := do
  return ", ".intercalate (← argumentTexts params args)

/-- The operator that reaches a member of an object. -/
def memberOperator (objectTy : Ty) : String := if objectTy.isClassPtr then "->" else "."

/-- The call of a method of the program. -/
def methodCallText (method : Signature) (object : Operand ρ) (args : List (Operand ρ)) :
    Rendered String := do
  let op ← if method.dispatch = .static then pure "::" else memberOperator <$> object.ty?
  let receiver ← object.plain .primary
  let arguments ← argumentsText (method.params.map Param.ty) args
  return receiver ++ op ++ camelCase method.name ++ "(" ++ arguments ++ ")"

/-- The standard name of a mathematical function. -/
def mathFunction (name : String) : String :=
  if name = "Ceiling" then "ceil"
  else if name = "Truncate" then "trunc"
  else lowercaseText name

/-- The call of a mathematical function, whose arguments are doubles. -/
def mathCallText (name : String) (args : List (Operand ρ)) : Rendered String := do
  return "std::" ++ mathFunction name ++ "(" ++
    (← argumentsText (args.map fun _ => .double) args) ++ ")"

/-- A string literal has to become a view before it can be asked anything. -/
def viewSuffix : Option Literal → String
  | some (.string _) => "sv"
  | _ => ""

/-- The call of a method of a standard string. -/
def stringCallText (name : String) (params : List Ty) (object : Operand ρ) (args : List (Operand ρ)) :
    Rendered String := do
  let marker := viewSuffix (← object.literal?)
  let receiver ← object.plain .primary
  let arguments ← argumentsText params args
  return receiver ++ marker ++ "." ++ name ++ "(" ++ arguments ++ ")"

/-- A position in a string, which is an unsigned number wider than the result type. -/
def positionCallText (name : String) (object : Operand ρ) (args : List (Operand ρ)) :
    Rendered String := do
  return "static_cast<int32_t>(" ++ (← stringCallText name [.string .view] object args) ++ ")"

/-- A raw pointer into an array, past the elements before the offset. No sum is written for an
offset of zero. -/
def offsetPointerText (array offset : Operand ρ) : Rendered String := do
  if (← offset.literal?) = some (.int 0) then array.text .arrayPointer .argument
  else
    let pointer ← array.text .arrayPointer .add
    return pointer ++ " + " ++ (← offset.coerced .i32 .mul)

/-- The call that copies a stretch of an array: offset, destination, offset there and count. -/
def copyCallText (source : Operand ρ) : List (Operand ρ) → Rendered String
  | [sourceOffset, target, targetOffset, count] => do
    let first ← offsetPointerText source sourceOffset
    let number ← count.coerced .i32 .argument
    let result ← offsetPointerText target targetOffset
    return "std::copy_n(" ++ first ++ ", " ++ number ++ ", " ++ result ++ ")"
  | args => unsupported (.arity "CopyTo" args.length 4)

/-- The view over a stretch of bytes: the bytes, an offset and a length. -/
def decodeCallText : List (Operand ρ) → Rendered String
  | [bytes, offset, length] => do
    let first ← offsetPointerText bytes offset
    let number ← length.coerced .i32 .argument
    return "std::string_view(reinterpret_cast<const char *>(" ++ first ++ "), " ++ number ++ ")"
  | args => unsupported (.arity "GetString" args.length 3)

/-- The call of a method of the library. -/
def libraryCallText (method : LibraryMethod) (object : Operand ρ) (args : List (Operand ρ))
    (position : Precedence) : Rendered String :=
  match method with
  | .math name => mathCallText name args
  | .stringContains => do
    let text ← stringCallText "find" [.string .view] object args
    return Precedence.equality.parenthesize position (text ++ " != std::string::npos")
  | .stringIndexOf => positionCallText "find" object args
  | .stringLastIndexOf => positionCallText "rfind" object args
  | .stringStartsWith => stringCallText "starts_with" [.string .view] object args
  | .stringEndsWith => stringCallText "ends_with" [.string .view] object args
  | .stringSubstring => stringCallText "substr" [.i32, .i32] object args
  | .arrayCopyTo => copyCallText object args
  | .utf8GetString => decodeCallText args
  | .other name => unsupported (.libraryMethod name)

/-- A call. -/
def callText (scope : Scope) (method : MethodRef) (object : Operand ρ) (args : List (Operand ρ))
    (position : Precedence) : Rendered String :=
  match method with
  | .user owner index => do methodCallText (← scope.method owner index) object args
  | .library method => libraryCallText method object args position

end CppPrinter
