import CppPrinter.Program.Env
import CppPrinter.Proofs.Expr.Simulation

/-!
# The trees of an arena

A position in an arena stands for the tree that following the references from it makes (`Arena.tree`).
Printing never makes that tree: it looks up positions as it goes. It comes to the same text, or the same
error, at every bound on the references followed (`Arena.textWithin_eq`), also where they form a circle
or lead out of the arena. So what is shown for trees holds of what an arena prints.
-/

namespace CppPrinter

namespace Arena

/-- The expression at a position with its operands unfolded, down to a depth. -/
def unfold (a : Arena) : Nat → ExprId → Expr
  | 0, _ => .dangling
  | depth + 1, id =>
    match a.nodes[id.index]? with
    | some n => .node (n.map fun operand _ => a.unfold depth operand)
    | none => .dangling

/-- The expression at a position as a tree. -/
def tree (a : Arena) (id : ExprId) : Expr := a.unfold a.depth id

variable (a : Arena)

/-- The tree below a position, as far as it may still be followed. -/
def Handle.tree {a : Arena} (h : a.Handle) : Unit → Expr := fun _ => a.unfold h.steps h.id

/-- A position shows the node that its tree shows. -/
theorem simulation_tree : Simulation (Handle.tree (a := a)) where
  node? := fun ⟨id, steps⟩ => by
    cases steps with
    | zero => rfl
    | succ steps =>
      show (a.unfold (steps + 1) id).node? = (Handle.node? ⟨id, steps + 1⟩).map _
      simp only [unfold, Handle.node?, node, lookUp]
      cases a.nodes[id.index]? with
      | none => rfl
      | some n =>
        show Except.ok _ = Except.ok ((n.map _).map Handle.tree)
        rw [Node.map_map]
        rfl

/-- A position is printed as its tree is. -/
theorem textWithin_eq (scope : Scope) (steps : Nat) (id : ExprId) :
    a.textWithin scope steps id = (a.unfold steps id).text scope := by
  induction steps generalizing id with
  | zero => rfl
  | succ steps ih =>
    -- The texts of the operands are those of their trees, so the nodes differ in what they show only.
    have operands (n : Node ExprId) :
        (n.map fun operand (_ : Unit) => a.unfold steps operand).map (Expr.operand scope) =
          (n.map fun id => (⟨⟨id, steps⟩, a.textWithin scope steps id⟩ : Operand a.Handle)).map
            (.along Handle.tree) := by
      simp only [Node.map_map, ih]
      rfl
    funext form position
    simp only [textWithin, unfold, node, lookUp]
    cases a.nodes[id.index]? with
    | none => rfl
    | some n =>
      rw [Expr.text_node, operands, (simulation_tree a).text_along]
      rfl

theorem text_eq (scope : Scope) (id : ExprId) : a.text scope id = (a.tree id).text scope :=
  a.textWithin_eq scope a.depth id

end Arena

theorem Env.text_eq (env : Env) (id : ExprId) (form : Form) :
    env.text id form = (env.exprs.tree id).text env.scope form .statement := by
  rw [Env.text, Arena.text_eq]

end CppPrinter
