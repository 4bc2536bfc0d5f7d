import CppPrinter.Expr.Basic
import CppPrinter.Error.Basic
import CppPrinter.Precedence

/-!
# Operands that are ready to be printed

A node is printed from its operands, each of which can be looked at and can be printed in several
forms (`Form`) for any position. With operands of this kind the rules of printing need no
recursion, and they do not depend on what an expression is known by (`Viewable`), which is its
position where an arena holds it. A rule asks for what it needs in a fixed order, and what no rule
asks for is neither looked up nor printed.
-/

namespace CppPrinter

/-- The forms in which an expression is printed. -/
inductive Form where
  /-- As it stands. -/
  | plain
  /-- Converted to a type, where that takes any text at all. -/
  | coerced (target : Ty)
  /-- Converted to a type by a written cast. -/
  | cast (target : Ty)
  /-- As a raw pointer to its first element. -/
  | arrayPointer
  deriving DecidableEq, Repr

/-- Expressions known by a `ρ` can be looked at. -/
class Viewable (ρ : Type) where
  /-- The topmost node, whose operands are known in the same way. -/
  node? : ρ → Rendered (Node ρ)

/-- The resolved type of an expression. -/
def Viewable.ty? {ρ : Type} [Viewable ρ] (e : ρ) : Rendered Ty := do return (← node? e).ty

/-- An expression known by a `ρ`, together with its texts. -/
structure Operand (ρ : Type) where
  expr : ρ
  text : Form → Precedence → Rendered String

namespace Operand

variable {ρ : Type}

def node? [Viewable ρ] (x : Operand ρ) : Rendered (Node ρ) := Viewable.node? x.expr

def ty? [Viewable ρ] (x : Operand ρ) : Rendered Ty := Viewable.ty? x.expr

def literal? [Viewable ρ] (x : Operand ρ) : Rendered (Option Literal) := do
  return (← x.node?).literal?

/-- The text as it stands. -/
def plain (x : Operand ρ) (position : Precedence) : Rendered String := x.text .plain position

/-- The text converted to a type. -/
def coerced (x : Operand ρ) (target : Ty) (position : Precedence) : Rendered String :=
  x.text (.coerced target) position

end Operand

end CppPrinter
