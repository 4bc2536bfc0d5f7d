import CppPrinter.Expr.Basic
import CppPrinter.Stmt.Basic
import CppPrinter.Text.Quoted

/-!
# Structural descriptions in messages

A message about a type, a symbol or a statement shows its structure in one line: the name of the
form, followed by its unnamed parts in parentheses or by its named parts in braces.
-/

namespace CppPrinter

namespace Description

/-- A form with unnamed parts. -/
def tuple (name : String) (parts : List String) : String :=
  name ++ "(" ++ ", ".intercalate parts ++ ")"

/-- A form with named parts. -/
def record (name : String) (parts : List (String × String)) : String :=
  name ++ " \x7b " ++ ", ".intercalate (parts.map fun p => p.1 ++ ": " ++ p.2) ++ " \x7d"

/-- A list of parts. -/
def list (parts : List String) : String := "[" ++ ", ".intercalate parts ++ "]"

/-- A part that may be absent. -/
def optional : Option String → String
  | none => "None"
  | some part => tuple "Some" [part]

/-- A truth value. -/
def truth (b : Bool) : String := if b then "true" else "false"

end Description

open Description

def ClassId.describe (id : ClassId) : String := tuple "ClassId" [toString id.index]

def EnumId.describe (id : EnumId) : String := tuple "EnumId" [toString id.index]

def ExprId.describe (id : ExprId) : String := tuple "ExprId" [toString id.index]

def IntWidth.describe (w : IntWidth) : String := "W" ++ toString w.bits

def IntegerType.describe (t : IntegerType) : String :=
  record "IntegerType" [("width", t.width.describe), ("signed", truth t.signed)]

def Ownership.describe : Ownership → String
  | readOnly => "None"
  | writable => "Mut"
  | shared => "Shared"

def StringKind.describe : StringKind → String
  | view => "View"
  | owned => "Owned"

def Ty.describe : Ty → String
  | void => "Void"
  | bool => "Bool"
  | integer int => tuple "Integer" [int.describe]
  | float => "Float"
  | double => "Double"
  | floatInt => "FloatInt"
  | string kind => tuple "String" [kind.describe]
  | arrayPtr ownership element =>
    record "ArrayPtr" [("modifier", ownership.describe), ("element", element.describe)]
  | arrayStorage element length =>
    record "ArrayStorage" [("element", element.describe), ("length", toString length)]
  | classPtr ownership pointee =>
    record "ClassPtr" [("modifier", ownership.describe), ("class", pointee.describe)]
  | classValue stored => tuple "Class" [stored.describe]
  | enum enumeration => tuple "Enum" [enumeration.describe]
  | null => "Null"

def Symbol.describe : Symbol → String
  | this => "This"
  | localName name => tuple "Local" [quoted name]
  | field owner name => record "Field" [("class", owner.describe), ("name", quoted name)]
  | constant owner name => record "Const" [("class", owner.describe), ("name", quoted name)]
  | enumValue owner name =>
    record "EnumValue" [("enumeration", owner.describe), ("name", quoted name)]
  | classRef target => tuple "Class" [target.describe]
  | enumRef target => tuple "Enum" [target.describe]
  | math => "Math"
  | utf8 => "Utf8Encoding"
  | stringLength => "StringLength"

namespace Stmt

/-- An expression that may be absent. -/
def describeValue (value : Option ExprId) : String := optional (value.map ExprId.describe)

mutual

/-- A statement with everything inside it; expressions are shown by their positions. -/
def describe : Stmt ExprId → String
  | .block body => tuple "Block" [list (describeAll body)]
  | .declare name ty value =>
    tuple "Var" [record "VarDecl"
      [("name", quoted name), ("ty", ty.describe), ("value", describeValue value)]]
  | .constant name ty value =>
    tuple "Const" [record "ConstDecl"
      [("name", quoted name), ("ty", ty.describe), ("value", value.describe)]]
  | .evaluate value => tuple "Expr" [value.describe]
  | .ret value => tuple "Return" [describeValue value]
  | .branch test positive negative =>
    record "If" [("cond", test.describe), ("then", describe positive),
      ("otherwise", describeOption negative)]
  | .whileLoop test body => record "While" [("cond", test.describe), ("body", describe body)]
  | .doLoop body test => record "DoWhile" [("body", describe body), ("cond", test.describe)]
  | .forLoop start test advance body =>
    record "For" [("init", describeOption start), ("cond", describeValue test),
      ("advance", describeValue advance), ("body", describe body)]
  | .breakLoop => "Break"
  | .continueLoop => "Continue"
  | .switch value cases otherwise =>
    record "Switch" [("value", value.describe), ("cases", list (describeCases cases)),
      ("default", describeBody otherwise)]
  | .throwing value => tuple "Throw" [value.describe]

def describeOption : Option (Stmt ExprId) → String
  | none => optional none
  | some s => optional (some (describe s))

def describeAll : List (Stmt ExprId) → List String
  | [] => []
  | s :: rest => describe s :: describeAll rest

def describeBody : Option (List (Stmt ExprId)) → String
  | none => optional none
  | some body => optional (some (list (describeAll body)))

def describeCases : List (List ExprId × List (Stmt ExprId)) → List String
  | [] => []
  | (labels, body) :: rest =>
    record "Case"
        [("values", list (labels.map ExprId.describe)), ("body", list (describeAll body))] ::
      describeCases rest

end

end Stmt

end CppPrinter
