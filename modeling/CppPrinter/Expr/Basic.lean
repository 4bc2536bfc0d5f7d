import CppPrinter.Ty.Basic
import CppPrinter.Number.Binary64

/-!
# Expressions

An expression is a shape (`Shape`) and the type it was resolved to (`Node`). A shape says nothing
about how its operands are held; in a program they are positions in its arena (`Node ExprId`). Rules
that look at one node only are stated for every kind of operand.
-/

namespace CppPrinter

/-- A literal value. -/
inductive Literal where
  | null
  | bool (value : Bool)
  | int (value : Int64)
  | double (value : Binary64)
  | string (value : String)
  deriving DecidableEq, Repr

namespace Literal

/-- The literal is the value that its type starts with: null, false or a zero. -/
def isDefault : Literal → Bool
  | null => true
  | bool value => !value
  | int value => value == 0
  | double value => value.isZero
  | string _ => false

end Literal

/-- What a name refers to. -/
inductive Symbol where
  /-- The object whose method is running. -/
  | this
  /-- A local variable or a parameter. -/
  | localName (name : String)
  | field (owner : ClassId) (name : String)
  /-- A constant of a class. -/
  | constant (owner : ClassId) (name : String)
  | enumValue (owner : EnumId) (name : String)
  /-- A class that qualifies a static member. -/
  | classRef (target : ClassId)
  /-- An enumeration that qualifies a member. -/
  | enumRef (target : EnumId)
  /-- The library of mathematical functions. -/
  | math
  /-- The library object that decodes bytes. -/
  | utf8
  /-- The length of a string. -/
  | stringLength
  deriving DecidableEq, Repr

/-- Operators written before their operand. -/
inductive UnaryOp where
  | neg
  | not
  | bitNot
  | increment
  | decrement
  deriving DecidableEq, Repr

/-- Operators written behind their operand. -/
inductive StepOp where
  | increment
  | decrement
  deriving DecidableEq, Repr

/-- Operators that compute a value and also combine with assignment. -/
inductive ArithOp where
  | mul
  | div
  | mod
  | add
  | sub
  | shl
  | shr
  | bitAnd
  | bitXor
  | bitOr
  deriving DecidableEq, Repr

/-- Comparisons of order. -/
inductive OrderOp where
  | lt
  | ltEq
  | gt
  | gtEq
  deriving DecidableEq, Repr

/-- Operators between two operands. -/
inductive BinaryOp where
  | arith (op : ArithOp)
  | and
  | or
  | order (op : OrderOp)
  | eq
  | notEq
  /-- The element of the left operand at the right operand. -/
  | index
  | assign
  /-- An assignment of the result of an operator to its left operand. -/
  | update (op : ArithOp)
  deriving DecidableEq, Repr

/-- The operator assigns to its left operand. -/
def BinaryOp.isAssign : BinaryOp → Bool
  | assign | update _ => true
  | _ => false

/-- Methods of the library. -/
inductive LibraryMethod where
  /-- A mathematical function, by the name it is called by. -/
  | math (name : String)
  | stringContains
  | stringIndexOf
  | stringLastIndexOf
  | stringStartsWith
  | stringEndsWith
  | stringSubstring
  /-- Copies a stretch of an array into another one. -/
  | arrayCopyTo
  /-- Decodes a stretch of a byte array. -/
  | utf8GetString
  /-- A method with no printed form. -/
  | other (name : String)
  deriving DecidableEq, Repr

/-- The function that drops the fraction of a number. -/
def LibraryMethod.isTruncate : LibraryMethod → Bool
  | math name => name == "Truncate"
  | _ => false

/-- The method that a call runs. -/
inductive MethodRef where
  /-- A method of a class of the program, by its position in the class. -/
  | user (owner : ClassId) (index : Nat)
  | library (method : LibraryMethod)
  deriving DecidableEq, Repr

/-- The form of an expression with operands of type `ρ`. -/
inductive Shape (ρ : Type) where
  | literal (value : Literal)
  | symbol (target : Symbol)
  | member (object : ρ) (target : Symbol)
  | unary (op : UnaryOp) (operand : ρ)
  | step (op : StepOp) (operand : ρ)
  | binary (op : BinaryOp) (left right : ρ)
  /-- One of two values, chosen by a condition. -/
  | select (test positive negative : ρ)
  | call (object : ρ) (method : MethodRef) (args : List ρ)
  | newObject (target : ClassId)
  | newArray (element : Ty) (length : ρ)
  /-- The elements of an array, listed. -/
  | aggregate (items : List ρ)
  /-- The bytes of a resource, by its name. -/
  | resource (name : String)
  deriving DecidableEq, Repr

/-- An expression one level deep: its form and its resolved type. -/
structure Node (ρ : Type) where
  shape : Shape ρ
  ty : Ty
  deriving DecidableEq, Repr

/-- Replaces every operand. -/
def Shape.map {α β : Type} (f : α → β) : Shape α → Shape β
  | literal value => .literal value
  | symbol target => .symbol target
  | member object target => .member (f object) target
  | unary op operand => .unary op (f operand)
  | step op operand => .step op (f operand)
  | binary op left right => .binary op (f left) (f right)
  | select test positive negative => .select (f test) (f positive) (f negative)
  | call object method args => .call (f object) method (args.map f)
  | newObject target => .newObject target
  | newArray element length => .newArray element (f length)
  | aggregate items => .aggregate (items.map f)
  | resource name => .resource name

@[simp] theorem Shape.map_map {α β γ : Type} (f : α → β) (g : β → γ) (s : Shape α) :
    (s.map f).map g = s.map (g ∘ f) := by
  cases s <;> simp [Shape.map]

namespace Node

variable {ρ α β : Type}

/-- Replaces every operand and keeps the type. -/
def map (f : α → β) (n : Node α) : Node β := ⟨n.shape.map f, n.ty⟩

@[simp] theorem map_map {γ : Type} (f : α → β) (g : β → γ) (n : Node α) :
    (n.map f).map g = n.map (g ∘ f) := by
  simp [map]

/-- The literal, if this is one. -/
def literal? (n : Node ρ) : Option Literal :=
  match n.shape with
  | .literal value => some value
  | _ => none

/-- The node takes an element of an array or a string. -/
def isIndexing (n : Node ρ) : Bool :=
  match n.shape with
  | .binary .index _ _ => true
  | _ => false

end Node

end CppPrinter
