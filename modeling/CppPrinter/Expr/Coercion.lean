import CppPrinter.Expr.Basic
import CppPrinter.Ty.IntKind

/-!
# Which conversions are written out

Decisions about conversions between numeric types, taken from the types and one node, before
anything is printed: whether a value needs a cast or a suffix to become a numeric type
(`Node.numericCoercion`), whether a store into an element narrows (`Node.indexedStore`), and which
mask a cast makes redundant (`Node.castOperand?`).
-/

namespace CppPrinter

/-- How a value becomes a value of a numeric type. -/
inductive NumericCoercion (ρ : Type) where
  /-- As it stands. -/
  | none
  /-- By the suffix of a single-precision literal. -/
  | floatSuffix
  /-- By a cast of the whole expression. -/
  | castSelf
  /-- By a cast of this operand alone. -/
  | castOperand (operand : ρ)
  deriving DecidableEq, Repr

/-- How a value is stored into an element. -/
inductive IndexedStore where
  /-- As it stands; the store itself keeps the value. -/
  | plain
  /-- By a cast to the type of the elements. -/
  | cast
  /-- As any other value of that type. -/
  | coerce
  deriving DecidableEq, Repr

namespace Node

variable {ρ : Type}

/-- The argument of a call that drops the fraction of a number, which a cast to an integer does
anyway. -/
def truncated? (n : Node ρ) : Option ρ :=
  match n.shape with
  | .call _ (.library method) [arg] => if method.isTruncate then some arg else none
  | _ => none

/-- How the value becomes a value of type `target`. -/
def numericCoercion (target : Ty) (n : Node ρ) : NumericCoercion ρ :=
  match target, n.ty with
  | .integer int, .integer source =>
    if source = .i64 ∧ int ≠ .i64 then .castSelf else .none
  | .float, .double => if n.literal?.isSome then .floatSuffix else .castSelf
  | .integer _, .floatInt =>
    match n.truncated? with
    | some arg => .castOperand arg
    | none => .castSelf
  | _, _ => .none

/-- The value has its promoted width: literals, elements and assignments keep their own. -/
def isPromoted (n : Node ρ) : Bool :=
  match n.shape with
  | .literal _ => false
  | .binary op _ _ => !(op == .index || op.isAssign)
  | _ => true

/-- How the value is stored into an element of type `element`. -/
def indexedStore (element : Ty) (n : Node ρ) : Rendered IndexedStore := do
  let left ← element.intKind? false
  let right ← n.ty.intKind? n.isPromoted
  match left, right with
  | some left, some right =>
    if left = .i8 ∧ right = .i8 then return .plain
    else if left.isNarrower right then return .cast
    else return .coerce
  | _, _ => return .coerce

/-- The two operands, if the node keeps the bits of one that the other has set. -/
def mask? (n : Node ρ) : Option (ρ × ρ) :=
  match n.shape with
  | .binary (.arith .bitAnd) left right => some (left, right)
  | _ => none

end Node

/-- A mask that keeps every bit of the type `target`, so that a cast to it drops nothing else. -/
def Literal.coversMask (target : Ty) : Literal → Bool
  | .int mask =>
    match target.intKind? false with
    | .ok (some kind) =>
      match kind.fullMask? with
      | some full => mask &&& full == full
      | none => false
    | _ => false
  | _ => false

/-- The operand that a cast of the node to `target` is written around, when it is not the node
itself: under a mask that covers the type, the masked operand. The right operand is looked at
through `literal?`. -/
def Node.castOperand? {ρ : Type} (literal? : ρ → Rendered (Option Literal)) (target : Ty)
    (n : Node ρ) : Rendered (Option ρ) :=
  match n.mask? with
  | none => .ok none
  | some (left, right) => do
    match ← literal? right with
    | some mask => return if mask.coversMask target then some left else none
    | none => return none

end CppPrinter
