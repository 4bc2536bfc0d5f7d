import CppPrinter.Class.Scope
import CppPrinter.Expr.Character
import CppPrinter.Expr.Coercion
import CppPrinter.Expr.Operand
import CppPrinter.Text.Literal

/-!
# Operators

The texts of unary operators, steps and operators between two operands. An operator that groups to
the left asks the next tighter level of its right operand; an assignment takes anything on its
right.
-/

namespace CppPrinter

def UnaryOp.symbol : UnaryOp → String
  | neg => "-"
  | not => "!"
  | bitNot => "~"
  | increment => "++"
  | decrement => "--"

def StepOp.symbol : StepOp → String
  | increment => "++"
  | decrement => "--"

def ArithOp.symbol : ArithOp → String
  | mul => "*"
  | div => "/"
  | mod => "%"
  | add => "+"
  | sub => "-"
  | shl => "<<"
  | shr => ">>"
  | bitAnd => "&"
  | bitXor => "^"
  | bitOr => "|"

def ArithOp.precedence : ArithOp → Precedence
  | mul | div | mod => .mul
  | add | sub => .add
  | shl | shr => .shift
  | bitAnd => .and
  | bitXor => .xor
  | bitOr => .or

def OrderOp.symbol : OrderOp → String
  | lt => "<"
  | ltEq => "<="
  | gt => ">"
  | gtEq => ">="

/-- Two texts with an operator between them. -/
def between (left symbol right : String) : String := left ++ " " ++ symbol ++ " " ++ right

/-- Two signs that would run together into one operator. -/
def signsMerge (symbol operand : String) : Bool :=
  match symbol.toList.head?, operand.toList.head? with
  | some s, some c => (s == '-' && c == '-') || (s == '+' && c == '+')
  | _, _ => false

variable {ρ : Type} [Viewable ρ]

/-- An operator before its operand. A sign keeps off an operand that starts with the same sign. -/
def unaryText (op : UnaryOp) (operand : Operand ρ) : Rendered String := do
  let text ← operand.plain .primary
  if signsMerge op.symbol text then return op.symbol ++ "(" ++ text ++ ")"
  else return op.symbol ++ text

/-- An operator behind its operand. -/
def stepText (op : StepOp) (operand : Operand ρ) : Rendered String := do
  return (← operand.plain .primary) ++ op.symbol

/-- An element of an array or a string. -/
def indexText (left right : Operand ρ) : Rendered String := do
  return (← left.plain .primary) ++ "[" ++ (← right.plain .statement) ++ "]"

/-- The right side of an assignment. A store into an element narrows by a written cast where the
promoted value is wider than the element. -/
def assignedText (left right : Operand ρ) : Rendered String := do
  let target ← left.node?
  if target.isIndexing then
    match ← (← right.node?).indexedStore target.ty with
    | .plain => right.plain .assign
    | .cast => right.text (.cast target.ty) .argument
    | .coerce => right.coerced target.ty .argument
  else right.coerced target.ty .argument

/-- An assignment. -/
def assignText (left right : Operand ρ) (position : Precedence) : Rendered String := do
  let target ← left.plain .assign
  let value ← assignedText left right
  return Precedence.assign.parenthesize position (between target "=" value)

/-- An operator that groups to the left. -/
def leftText (level : Precedence) (symbol : String) (left right : Operand ρ)
    (position : Precedence) : Rendered String := do
  let l ← left.plain level
  let r ← right.plain level.tighter
  return level.parenthesize position (between l symbol r)

/-- An assignment that combines with an operator. -/
def updateText (op : ArithOp) (left right : Operand ρ) (position : Precedence) :
    Rendered String := do
  let l ← left.plain .assign
  let r ← right.plain .argument
  return Precedence.assign.parenthesize position (between l (op.symbol ++ "=") r)

/-- The character to compare with, where the left side is an element of a string and the right
side a literal that stands for one character. -/
def comparedChar? (left right : Operand ρ) : Rendered (Option Char) := do
  match (← left.node?).shape with
  | .binary .index text _ =>
    if (← Viewable.ty? text).isString then return (← right.node?).plainChar? else return none
  | _ => return none

/-- A comparison. A character taken from a string is compared with a character literal. -/
def comparisonText (level : Precedence) (symbol : String) (left right : Operand ρ)
    (position : Precedence) : Rendered String := do
  let r ← match ← comparedChar? left right with
    | some c => pure (charLiteral c)
    | none => right.plain level.tighter
  let l ← left.plain level
  return level.parenthesize position (between l symbol r)

/-- The class at which both sides of an equality meet, when the type of one is a class pointer that
accepts the type of the other. -/
def commonClass? (scope : Scope) (left right : Ty) : Rendered (Option ClassId) := do
  if ← scope.accepts left right then return left.pointee?
  else if ← scope.accepts right left then return right.pointee?
  else return none

/-- An equality or its negation. Pointers to objects are compared as raw pointers, whoever owns
the objects. -/
def equalityText (scope : Scope) (symbol : String) (left right : Operand ρ)
    (position : Precedence) : Rendered String := do
  let leftTy ← left.ty?
  let rightTy ← right.ty?
  match ← commonClass? scope leftTy rightTy with
  | some common => do
    let l ← left.coerced (.classPtr .readOnly common) .equality
    let r ← right.coerced (.classPtr .readOnly common) .rel
    return Precedence.equality.parenthesize position (between l symbol r)
  | none => comparisonText .equality symbol left right position

/-- An operator between two operands. -/
def binaryText (scope : Scope) (op : BinaryOp) (left right : Operand ρ) (position : Precedence) :
    Rendered String :=
  match op with
  | .arith op => leftText op.precedence op.symbol left right position
  | .and => leftText .condAnd "&&" left right position
  | .or => leftText .condOr "||" left right position
  | .order op => comparisonText .rel op.symbol left right position
  | .eq => equalityText scope "==" left right position
  | .notEq => equalityText scope "!=" left right position
  | .index => indexText left right
  | .assign => assignText left right position
  | .update op => updateText op left right position

end CppPrinter
