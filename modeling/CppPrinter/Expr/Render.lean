import CppPrinter.Expr.Atom
import CppPrinter.Expr.Call
import CppPrinter.Expr.Operator
import CppPrinter.Ty.Spelling

/-!
# Text of expressions

One node is printed in a given form from its operands (`Node.text`): as it stands, as a pointer to
its first element, under a written cast, or converted to a type. The conversion rules are tried in
order: a borrowed class pointer takes the address of an object or the raw pointer of a shared one,
a borrowed array pointer is the first element's, the branches of a conditional are converted one
by one, and numbers follow `Node.numericCoercion`.
-/

namespace CppPrinter

variable {ρ : Type} [Viewable ρ]

/-- A member of an object, or the length of a string. -/
def memberText (object : Operand ρ) (target : Symbol) : Rendered String :=
  match target with
  | .stringLength => do return (← object.plain .primary) ++ ".length()"
  | _ => do
    let name ← target.memberName
    let receiver ← object.plain .primary
    let op ← if target.isScoped then pure "::" else memberOperator <$> object.ty?
    return receiver ++ op ++ name

/-- A conditional with both branches converted to a type. -/
def selectText (target : Ty) (test positive negative : Operand ρ) (position : Precedence) :
    Rendered String := do
  let c ← test.plain .condOr
  let t ← positive.coerced target .select
  let e ← negative.coerced target .select
  return Precedence.select.parenthesize position (c ++ " ? " ++ t ++ " : " ++ e)

/-- The listed elements of an array, each converted to the type of the elements. -/
def aggregateText (ty : Ty) (items : List (Operand ρ)) : Rendered String :=
  match ty.element? with
  | some element => do
    return "\x7b " ++ (← argumentsText (items.map fun _ => element) items) ++ " \x7d"
  | none => unsupported (.aggregateOf ty)

namespace Node

/-- The text as it stands. -/
def plainText (scope : Scope) (n : Node (Operand ρ)) (position : Precedence) : Rendered String :=
  match n.shape with
  | .literal value => value.text
  | .symbol target => target.text scope
  | .member object target => memberText object target
  | .unary op operand => unaryText op operand
  | .step op operand => stepText op operand
  | .binary op left right => binaryText scope op left right position
  | .select test positive negative => selectText n.ty test positive negative position
  | .call object method args => callText scope method object args position
  | .newObject target => do return "std::make_shared<" ++ (← scope.className target) ++ ">()"
  | .newArray element length => do
    let ty ← element.spelling scope false
    return "std::make_shared<" ++ ty ++ "[]>(" ++ (← length.plain .argument) ++ ")"
  | .aggregate items => aggregateText n.ty items
  | .resource name => .ok (resourceReference name)

/-- The text as a raw pointer to the first element. -/
def arrayPointerText (scope : Scope) (n : Node (Operand ρ)) (position : Precedence) :
    Rendered String :=
  match n.ty with
  | .arrayStorage .. => do return (← n.plainText scope .primary) ++ ".data()"
  | .arrayPtr .shared _ => do return (← n.plainText scope .primary) ++ ".get()"
  | _ => n.plainText scope position

/-- The text under a written cast. -/
def castText (scope : Scope) (target : Ty) (n : Node (Operand ρ)) : Rendered String := do
  let operand? ← n.castOperand? Operand.literal? target
  let ty ← target.spelling scope false
  let text ← match operand? with
    | some operand => operand.plain .argument
    | none => n.plainText scope .argument
  return "static_cast<" ++ ty ++ ">(" ++ text ++ ")"

/-- The text converted to a numeric type. -/
def numberText (scope : Scope) (target : Ty) (n : Node (Operand ρ)) (position : Precedence) :
    Rendered String :=
  match n.numericCoercion target with
  | .none => n.plainText scope position
  | .floatSuffix => do return (← n.plainText scope .primary) ++ "f"
  | .castSelf => n.castText scope target
  | .castOperand operand => operand.text (.cast target) .argument

/-- The text converted to a type that needs no pointer conversion. -/
def valueText (scope : Scope) (target : Ty) (n : Node (Operand ρ)) (position : Precedence) :
    Rendered String :=
  match n.shape with
  | .select test positive negative => selectText target test positive negative position
  | _ => n.numberText scope target position

/-- The text converted to a type. -/
def coercedText (scope : Scope) (target : Ty) (n : Node (Operand ρ)) (position : Precedence) :
    Rendered String :=
  match target, n.ty with
  | .classPtr .shared _, _ | .arrayPtr .shared _, _ => n.valueText scope target position
  | .classPtr .., .classValue _ => do return "&" ++ (← n.plainText scope .primary)
  | .classPtr .., .classPtr .shared _ => do return (← n.plainText scope .primary) ++ ".get()"
  | .arrayPtr .., _ => n.arrayPointerText scope position
  | _, _ => n.valueText scope target position

/-- The text in a given form. -/
def text (scope : Scope) (n : Node (Operand ρ)) : Form → Precedence → Rendered String
  | .plain, position => n.plainText scope position
  | .coerced target, position => n.coercedText scope target position
  | .cast target, _ => n.castText scope target
  | .arrayPointer, position => n.arrayPointerText scope position

end Node

end CppPrinter
