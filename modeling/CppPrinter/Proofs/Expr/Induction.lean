import CppPrinter.Proofs.Expr.Tree
import CppPrinter.Proofs.Expr.Coercion

/-!
# Induction over expressions

An expression holds its operands inside a node and a shape, and inside a list where there may be
any number of them. `Expr.induction` passes over these layers: what holds of a node as soon as it
holds of its operands holds of every expression. `Expr.Every` is a property of single nodes, asked
of all nodes of a tree.
-/

namespace CppPrinter

/-- The operands of a shape, from left to right. -/
def Shape.operandsOf {ρ : Type} : Shape ρ → List ρ
  | literal _ | symbol _ | newObject _ | resource _ => []
  | member e _ | unary _ e | step _ e | newArray _ e => [e]
  | binary _ l r => [l, r]
  | select c t e => [c, t, e]
  | call object _ args => object :: args
  | aggregate items => items

theorem Shape.operandsOf_map {α β : Type} (f : α → β) (s : Shape α) :
    (s.map f).operandsOf = s.operandsOf.map f := by
  cases s <;> rfl

namespace Node

variable {ρ : Type} {n : Node ρ} {target : Ty} {operand : ρ}

/-- What a cast is written around in place of the node is an operand of the node. -/
theorem mem_operandsOf_of_castOperand? {literal? : ρ → Rendered (Option Literal)}
    (chosen : n.castOperand? literal? target = .ok (some operand)) :
    operand ∈ n.shape.operandsOf := by
  obtain ⟨right, mask, shape, -, -⟩ := castOperand?_eq_some_iff_covers.1 chosen
  simp [shape, Shape.operandsOf]

/-- What is cast in place of a call that drops a fraction is an operand of the call. -/
theorem mem_operandsOf_of_numericCoercion
    (chosen : n.numericCoercion target = .castOperand operand) :
    operand ∈ n.shape.operandsOf := by
  have source := n.numericCoercion_comesFrom target
  rw [chosen] at source
  cases source with
  | castOperand integer fraction isCall =>
    obtain ⟨object, method, shape, -⟩ := truncated?_eq_some_iff.1 isCall
    simp [shape, Shape.operandsOf]

/-- Only literals take the suffix of a single-precision number. -/
theorem literal_of_floatSuffix (chosen : n.numericCoercion target = .floatSuffix) :
    ∃ value, n.shape = .literal value := by
  have source := n.numericCoercion_comesFrom target
  rw [chosen] at source
  cases source with
  | floatSuffix single double isLiteral => exact ⟨_, isLiteral⟩

end Node

/-- The property passes from the operands of a node to the node. -/
structure Expr.Passes (motive : Expr → Prop) : Prop where
  dangling : motive .dangling
  node : ∀ n : Node (Unit → Expr), (∀ e ∈ n.shape.operandsOf, motive (e ())) → motive (.node n)

namespace Expr.Passes

variable {motive : Expr → Prop}

mutual

theorem expr (passes : Expr.Passes motive) : (e : Expr) → motive e
  | .dangling => passes.dangling
  | .node n => passes.node n (passes.operands n)

theorem operands (passes : Expr.Passes motive) :
    (n : Node (Unit → Expr)) → ∀ e ∈ n.shape.operandsOf, motive (e ())
  | ⟨shape, _⟩ => passes.shape shape

theorem shape (passes : Expr.Passes motive) :
    (s : Shape (Unit → Expr)) → ∀ e ∈ s.operandsOf, motive (e ())
  | .literal _ | .symbol _ | .newObject _ | .resource _ => List.forall_mem_nil _
  | .member e _ | .unary _ e | .step _ e | .newArray _ e =>
    List.forall_mem_singleton.2 (passes.expr (e ()))
  | .binary _ l r =>
    List.forall_mem_cons.2 ⟨passes.expr (l ()),
      List.forall_mem_singleton.2 (passes.expr (r ()))⟩
  | .select c t e =>
    List.forall_mem_cons.2 ⟨passes.expr (c ()),
      List.forall_mem_cons.2 ⟨passes.expr (t ()),
        List.forall_mem_singleton.2 (passes.expr (e ()))⟩⟩
  | .call object _ args =>
    List.forall_mem_cons.2 ⟨passes.expr (object ()), passes.list args⟩
  | .aggregate items => passes.list items

theorem list (passes : Expr.Passes motive) :
    (es : List (Unit → Expr)) → ∀ e ∈ es, motive (e ())
  | [] => List.forall_mem_nil _
  | e :: rest => List.forall_mem_cons.2 ⟨passes.expr (e ()), passes.list rest⟩

end

end Expr.Passes

/-- What passes from the operands to a node holds of every expression. -/
theorem Expr.induction {motive : Expr → Prop} (dangling : motive .dangling)
    (node : ∀ n : Node (Unit → Expr), (∀ e ∈ n.shape.operandsOf, motive (e ())) →
      motive (.node n)) (e : Expr) : motive e :=
  Expr.Passes.expr ⟨dangling, node⟩ e

/-- Every node of the expression has the property. -/
inductive Expr.Every (property : Node (Unit → Expr) → Prop) : Expr → Prop where
  | dangling : Every property .dangling
  | node (n : Node (Unit → Expr)) (here : property n)
      (below : ∀ e ∈ n.shape.operandsOf, Every property (e ())) : Every property (.node n)

theorem Expr.Every.parts {property : Node (Unit → Expr) → Prop} {n : Node (Unit → Expr)}
    (h : Expr.Every property (.node n)) :
    property n ∧ ∀ e ∈ n.shape.operandsOf, Expr.Every property (e ()) := by
  cases h with
  | node n here below => exact ⟨here, below⟩

end CppPrinter
