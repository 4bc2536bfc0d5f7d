import CppPrinter.Proofs.Expr.Unfold
import CppPrinter.Proofs.Reference.Expr

/-!
# Arenas in which operands come first

An arena resolves when its nodes do and the operands of each stand before it, as they do when nodes
are only ever placed at the end. Then unfolding ends by itself: from a depth beyond the position on,
every depth gives the same tree (`Arena.unfold_eq_tree`), in which no operand is missing
(`Arena.Resolves.tree`).
-/

namespace CppPrinter

/-- Functions that agree on the operands agree on the shape. -/
theorem Shape.map_congr {α β : Type} {f g : α → β} {s : Shape α}
    (same : ∀ x ∈ s.operandsOf, f x = g x) : s.map f = s.map g := by
  cases s <;> simp_all [map, operandsOf]

namespace Arena

/-- Every node resolves, and its operands stand before it. -/
structure Resolves (scope : Scope) (a : Arena) : Prop where
  nodes : ∀ n ∈ a.nodes, n.Resolves scope
  descends : ∀ (id : ExprId) (n : Node ExprId), a.nodes[id.index]? = some n →
    ∀ operand ∈ n.shape.operandsOf, operand.index < id.index

variable {scope : Scope} {a : Arena}

/-- Where operands come first, unfolding does not depend on the depth. -/
theorem unfold_eq (h : a.Resolves scope) (depth : Nat) {id : ExprId} (deep : id.index < depth)
    {depth' : Nat} (deep' : id.index < depth') : a.unfold depth id = a.unfold depth' id := by
  induction depth generalizing id depth' with
  | zero => exact absurd deep (Nat.not_lt_zero _)
  | succ depth ih =>
    obtain ⟨below, rfl⟩ := Nat.exists_eq_add_of_lt deep'
    cases found : a.nodes[id.index]? with
    | none => simp [unfold, found]
    | some n =>
      -- The operands stand before the node, so both depths still reach beyond them.
      have same : n.map (fun operand _ => a.unfold depth operand) =
          n.map fun operand (_ : Unit) => a.unfold (id.index + below) operand := by
        refine congrArg (Node.mk · n.ty) (Shape.map_congr fun operand member => ?_)
        have before := h.descends id n found operand member
        exact funext fun _ => ih (by omega) (by omega)
      simp only [unfold, found, same]

/-- The tree of an expression is what unfolding gives at any depth beyond its position. -/
theorem unfold_eq_tree (h : a.Resolves scope) {id : ExprId} (inside : id.index < a.nodes.size)
    {depth : Nat} (deep : id.index < depth) : a.unfold depth id = a.tree id :=
  unfold_eq h depth deep (by unfold Arena.depth; omega)

theorem Resolves.unfold (h : a.Resolves scope) (depth : Nat) {id : ExprId}
    (deep : id.index < depth) (inside : id.index < a.nodes.size) :
    (a.unfold depth id).Resolves scope := by
  induction depth generalizing id with
  | zero => exact absurd deep (Nat.not_lt_zero _)
  | succ depth ih =>
    have found := Array.getElem?_eq_getElem inside
    rw [Arena.unfold, found]
    refine .node _ (Node.resolves_map _ (h.nodes _ (Array.getElem_mem inside))) ?_
    intro e member
    rw [Node.map, Shape.operandsOf_map] at member
    obtain ⟨operand, listed, rfl⟩ := List.mem_map.1 member
    have before := h.descends id _ found operand listed
    exact ih (by omega) (by omega)

/-- The tree of an expression resolves. -/
theorem Resolves.tree (h : a.Resolves scope) {id : ExprId} (inside : id.index < a.nodes.size) :
    (a.tree id).Resolves scope :=
  h.unfold _ (by unfold Arena.depth; omega) inside

end Arena

/-- The declarations and the arena resolve. -/
structure Env.Resolves (env : Env) : Prop where
  scope : env.scope.Resolves
  exprs : env.exprs.Resolves env.scope

theorem Env.text_grounded {fits : Prop} {env : Env} (resolves : fits → env.Resolves) {id : ExprId}
    (inside : fits → id.index < env.exprs.nodes.size) {form : Form}
    (named : fits → form.Resolves env.scope) : Grounded fits (env.text id form) := by
  rw [Env.text_eq]
  exact (Expr.operand_grounded (fun holds => (resolves holds).scope) fun holds =>
    (resolves holds).exprs.tree (inside holds)).text form .statement named

end CppPrinter
