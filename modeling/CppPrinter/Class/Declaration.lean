import CppPrinter.Layout.Line
import CppPrinter.Stmt.Declaration

/-!
# Class definitions in the header

A class is laid out in sections, one for each visibility, in a fixed order. A section lists the
constructor if it belongs there, then the constants that need storage, the fields and the methods,
and is left out when it would be empty.
-/

namespace CppPrinter

/-- The sections of a class in order. What is visible in the compilation unit is public. -/
def sections : List (Visibility × String) :=
  [(.everywhere, "public"), (.descendants, "protected"), (.unit, "public"), (.ownClass, "private")]

/-- Where the constructor is declared: derived classes alone instantiate an abstract class, and
nobody a static one. -/
def ClassKind.constructorVisibility : ClassKind → Visibility
  | static => .ownClass
  | abstract => .descendants
  | normal | sealed => .everywhere

/-- What stands before a method's signature in its class. -/
def Dispatch.specifier : Dispatch → String
  | static => "static "
  | abstract | virtual => "virtual "
  | normal | override | sealed => ""

/-- What stands behind a method's signature in its class. -/
def Dispatch.qualifier : Dispatch → String
  | abstract => " = 0"
  | override => " override"
  | sealed => " final"
  | static | normal | virtual => ""

/-- The mark of a method that leaves its object as it is. -/
def Signature.constness (s : Signature) : String :=
  if s.dispatch ≠ .static ∧ ¬ s.isMutator then " const" else ""

/-- The parameters of a method. -/
def Signature.paramsText (scope : Scope) (s : Signature) : Rendered String := do
  return ", ".intercalate (← s.params.mapM fun p => p.ty.declaration scope p.name)

/-- Return type, name, parameters and constness. -/
def Signature.text (scope : Scope) (s : Signature) (name : String) : Rendered String := do
  let params ← s.paramsText scope
  return (← s.returnType.declaration scope name) ++ "(" ++ params ++ ")" ++ s.constness

/-- The line that declares a method in its class. -/
def Signature.declarationLine (scope : Scope) (s : Signature) : Rendered Line := do
  return .flush (s.dispatch.specifier ++ (← s.text scope (camelCase s.name)) ++
    s.dispatch.qualifier ++ ";")

namespace Class

variable (c : Class ExprId)

/-- The constants of a visibility that need storage. Others are folded into their uses. -/
def storedConstants (v : Visibility) : List (Constant ExprId) :=
  c.constants.filter fun k => k.visibility = v && k.ty.isArrayStorage

def fieldsOf (v : Visibility) : List (Field ExprId) := c.fields.filter (·.visibility = v)

def methodsOf (v : Visibility) : List (Method ExprId) := c.methods.filter (·.visibility = v)

/-- The constructor is declared in the section of this visibility. -/
def hasConstructorIn (v : Visibility) : Bool := c.kind.constructorVisibility == v

/-- What stands behind the constructor's declaration: a class that is never instantiated has none,
and one without a body of its own takes the standard one. -/
def constructorSuffix : String :=
  if c.kind = .static then " = delete"
  else if c.constructorBody.isNone then " = default"
  else ""

/-- The line that declares the constructor. -/
def constructorLine : Line := .flush (c.name ++ "()" ++ c.constructorSuffix ++ ";")

/-- Nothing is declared at this visibility. -/
def isEmptyIn (v : Visibility) : Bool :=
  !c.hasConstructorIn v && (c.storedConstants v).isEmpty && (c.fieldsOf v).isEmpty &&
    (c.methodsOf v).isEmpty

/-- The lines inside one section. -/
def memberLines (env : Env) (v : Visibility) : Rendered (List Line) := do
  let start := if c.hasConstructorIn v then [c.constructorLine] else []
  let constants ← (c.storedConstants v).mapM fun k => do
    return Line.flush (← env.constant (camelCase k.name) k.ty k.value)
  let fields ← (c.fieldsOf v).mapM fun f => do
    return Line.flush ((← env.declare (camelCase f.name) f.ty f.value) ++ ";")
  let methods ← (c.methodsOf v).mapM fun m => m.toSignature.declarationLine env.scope
  return start ++ constants ++ fields ++ methods

/-- One section, or nothing. -/
def sectionLines (env : Env) (v : Visibility) (keyword : String) : Rendered (List Line) :=
  if c.isEmptyIn v then .ok []
  else do return .flush (keyword ++ ":") :: indented (← c.memberLines env v)

/-- The head of the class: its name, whether nothing derives from it, and its parent. -/
def headText (scope : Scope) : Rendered String := do
  let parent ← match c.parent with
    | some id => (" : public " ++ ·) <$> scope.className id
    | none => pure ""
  return "class " ++ c.name ++ (if c.kind = .sealed then " final" else "") ++ parent

/-- The definition of the class, below an empty line. -/
def declarationLines (env : Env) : Rendered (List Line) := do
  let head ← c.headText env.scope
  let body ← sections.mapM fun s => c.sectionLines env s.1 s.2
  return [Line.blank, .flush head, .flush "\x7b"] ++ body.flatten ++ [Line.flush "\x7d;"]

end Class

end CppPrinter
