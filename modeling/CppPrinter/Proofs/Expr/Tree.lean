import CppPrinter.Expr.Render

/-!
# Expressions as trees

An expression as a tree holds its operands instead of their positions. The rules of printing apply to
its nodes as they do to those of an arena (`Expr.text`), and since a tree ends, what is said of its text is
proved by induction. An arena prints the trees it stands for (`Arena.text_eq`), so what is proved of the text
of every tree holds of all that is printed.
-/

namespace CppPrinter

/-- An expression as a tree. What stands below a node is put off until it is asked for, so a tree
costs no more than the part of it that is read, however often it repeats itself. A reference that
leads nowhere is a leaf of its own (`dangling`), which only an attempt to look at it turns into an
error. -/
inductive Expr where
  | dangling
  | node (n : Node (Unit → Expr))

namespace Expr

/-- The topmost node of an expression. -/
def node? : Expr → Rendered (Node (Unit → Expr))
  | dangling => .error .dangling
  | node n => .ok n

/-- The resolved type of an expression. -/
def ty? (e : Expr) : Rendered Ty := do return (← e.node?).ty

/-- The literal that an expression is, if it is one. -/
def literal? (e : Expr) : Rendered (Option Literal) := do return (← e.node?).literal?

instance : Viewable (Unit → Expr) where
  node? e := (e ()).node?

@[simp] theorem viewable_node? (e : Unit → Expr) : Viewable.node? e = (e ()).node? := rfl

@[simp] theorem viewable_ty? (e : Unit → Expr) : Viewable.ty? e = (e ()).ty? := rfl

end Expr

/-- An operand that is known as a tree. -/
abbrev TreeOperand := Operand (Unit → Expr)

mutual

/-- The text of an expression in a given form, fit for a position. This is what an arena prints at a position
that stands for the tree (`Arena.text_eq`). -/
def Expr.text (scope : Scope) : Expr → Form → Precedence → Rendered String
  | .dangling => fun _ _ => .error .dangling
  | .node n => fun form position => (Node.operands scope n).text scope form position

/-- The node with operands that can be printed. -/
def Node.operands (scope : Scope) : Node (Unit → Expr) → Node TreeOperand
  | ⟨shape, ty⟩ => ⟨Shape.operands scope shape, ty⟩

def Shape.operands (scope : Scope) : Shape (Unit → Expr) → Shape TreeOperand
  | .literal value => .literal value
  | .symbol target => .symbol target
  | .member object target => .member ⟨object, fun f p => (object ()).text scope f p⟩ target
  | .unary op operand => .unary op ⟨operand, fun f p => (operand ()).text scope f p⟩
  | .step op operand => .step op ⟨operand, fun f p => (operand ()).text scope f p⟩
  | .binary op left right =>
    .binary op ⟨left, fun f p => (left ()).text scope f p⟩
      ⟨right, fun f p => (right ()).text scope f p⟩
  | .select test positive negative =>
    .select ⟨test, fun f p => (test ()).text scope f p⟩
      ⟨positive, fun f p => (positive ()).text scope f p⟩
      ⟨negative, fun f p => (negative ()).text scope f p⟩
  | .call object method args =>
    .call ⟨object, fun f p => (object ()).text scope f p⟩ method (operandList scope args)
  | .newObject target => .newObject target
  | .newArray element length =>
    .newArray element ⟨length, fun f p => (length ()).text scope f p⟩
  | .aggregate items => .aggregate (operandList scope items)
  | .resource name => .resource name

def operandList (scope : Scope) : List (Unit → Expr) → List TreeOperand
  | [] => []
  | e :: rest => ⟨e, fun f p => (e ()).text scope f p⟩ :: operandList scope rest

end

/-- An expression as an operand. -/
def Expr.operand (scope : Scope) (e : Unit → Expr) : TreeOperand :=
  ⟨e, fun form position => (e ()).text scope form position⟩

theorem operandList_eq_map (scope : Scope) (es : List (Unit → Expr)) :
    operandList scope es = es.map (Expr.operand scope) := by
  induction es with
  | nil => rfl
  | cons e rest ih => simp [operandList, Expr.operand, ih]

/-- The operands of a node are its own expressions, each with its text. -/
theorem Shape.operands_eq_map (scope : Scope) (s : Shape (Unit → Expr)) :
    Shape.operands scope s = s.map (Expr.operand scope) := by
  cases s <;> simp [Shape.operands, Shape.map, Expr.operand, operandList_eq_map]

/-- A node is printed from its operands. -/
theorem Expr.text_node (scope : Scope) (n : Node (Unit → Expr)) :
    (Expr.node n).text scope = (n.map (Expr.operand scope)).text scope := by
  obtain ⟨shape, ty⟩ := n
  rw [Expr.text, Node.operands, Shape.operands_eq_map, Node.map]

end CppPrinter
