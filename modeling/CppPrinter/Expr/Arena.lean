import CppPrinter.Expr.Render

/-!
# Expressions in an arena

The expressions of a program stand in one table and refer to each other by position. An expression is
printed by its position (`Arena.text`): its node is looked up, and each operand is a position again,
which is looked up when a rule asks for the node or the text of the operand. References may form a
circle, so only a number of them is followed in a row.
-/

namespace CppPrinter

/-- Expressions by position. -/
structure Arena where
  nodes : Array (Node ExprId) := #[]

namespace Arena

/-- The expression at a position. -/
def node (a : Arena) (id : ExprId) : Rendered (Node ExprId) := lookUp a.nodes id.index

/-- Places an expression at the end. -/
def push (a : Arena) (n : Node ExprId) : Arena := ⟨a.nodes.push n⟩

/-- How many references are followed in a row before a circle is given up. Where each expression refers to
earlier ones only, no chain of references is longer than the arena. -/
def depth (a : Arena) : Nat := 4 * a.nodes.size

/-- A position in the arena, from which so many references in a row may still be followed. -/
structure Handle (a : Arena) where
  id : ExprId
  steps : Nat

variable {a : Arena}

/-- The expression at the position, with the positions of its operands. -/
def Handle.node? : a.Handle → Rendered (Node a.Handle)
  | ⟨_, 0⟩ => .error .dangling
  | ⟨id, steps + 1⟩ => do return (← a.node id).map fun operand => ⟨operand, steps⟩

instance : Viewable a.Handle := ⟨Handle.node?⟩

/-- The text of the expression at a position, by at most so many references in a row. -/
def textWithin (a : Arena) (scope : Scope) : Nat → ExprId → Form → Precedence → Rendered String
  | 0, _ => fun _ _ => .error .dangling
  | steps + 1, id => fun form position => do
    let n ← a.node id
    let operand (id : ExprId) : Operand a.Handle := ⟨⟨id, steps⟩, a.textWithin scope steps id⟩
    (n.map operand).text scope form position

/-- The text of the expression at a position. -/
def text (a : Arena) (scope : Scope) (id : ExprId) : Form → Precedence → Rendered String :=
  a.textWithin scope a.depth id

end Arena

end CppPrinter
