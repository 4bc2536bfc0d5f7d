import CppPrinter.Proofs.Expr.Induction
import CppPrinter.Proofs.Expr.Rule
import Mathlib.Data.Set.Insert

/-!
# Resources that an expression mentions

An expression mentions a resource if it is one or mentions one in an operand that is printed
(`Expr.Mentions`). What a rule of printing leaves out mentions none: a literal that stands for a character,
an offset of zero or a mask (`Expr.mentioned_of_literal?`), or the object of a call that is made by name.
-/

namespace CppPrinter

/-- The operands that are printed. A mathematical function is called by its name alone, and so is the
decoding of bytes. -/
def Shape.printedOperands {ρ : Type} : Shape ρ → List ρ
  | call _ (.library (.math _)) args | call _ (.library .utf8GetString) args => args
  | s => s.operandsOf

theorem Shape.printedOperands_map {α β : Type} (f : α → β) (s : Shape α) :
    (s.map f).printedOperands = s.printedOperands.map f := by
  cases s with
  | call object method args =>
    cases method with
    | user => rfl
    | library method => cases method <;> rfl
  | _ => rfl

theorem Shape.printedOperands_subset {ρ : Type} (s : Shape ρ) : s.printedOperands ⊆ s.operandsOf := by
  unfold printedOperands
  split
  · exact List.subset_cons_self _ _
  · exact List.subset_cons_self _ _
  · exact List.Subset.refl _

/-- The expression stands for the resource, or an operand of it that is printed does. -/
inductive Expr.Mentions (name : String) : Expr → Prop where
  | itself (ty : Ty) : Mentions name (.node ⟨.resource name, ty⟩)
  | operand (n : Node (Unit → Expr)) {e : Unit → Expr} (listed : e ∈ n.shape.printedOperands)
      (inside : Mentions name (e ())) : Mentions name (.node n)

/-- The identifiers of the resources that the expression mentions. -/
def Expr.mentioned (e : Expr) : Set String :=
  {id | ∃ name, e.Mentions name ∧ sanitizeIdentifier name = id}

def Operand.mentioned (x : TreeOperand) : Set String := (x.expr ()).mentioned

/-- What some operands mention. -/
def mentionedIn (xs : List TreeOperand) : Set String := {id | ∃ x ∈ xs, id ∈ x.mentioned}

@[simp] theorem mentionedIn_nil : mentionedIn [] = ∅ := by
  simp [mentionedIn]

@[simp] theorem mentionedIn_cons (x : TreeOperand) (xs : List TreeOperand) :
    mentionedIn (x :: xs) = x.mentioned ∪ mentionedIn xs := by
  ext id
  simp [mentionedIn]

theorem mentionedIn_singleton (x : TreeOperand) : mentionedIn [x] = x.mentioned := by simp

theorem mentionedIn_pair (x y : TreeOperand) : mentionedIn [x, y] = x.mentioned ∪ y.mentioned := by simp

/-- What a node mentions. -/
def Node.mentioned (n : Node TreeOperand) : Set String :=
  match n.shape with
  | .resource name => {sanitizeIdentifier name}
  | s => mentionedIn s.printedOperands

/-- An expression mentions what its topmost node does. -/
theorem Expr.mentioned_node (scope : Scope) (n : Node (Unit → Expr)) :
    (Expr.node n).mentioned = (n.map (Expr.operand scope)).mentioned := by
  have passed : ∀ s : Shape (Unit → Expr), (∀ name, s ≠ .resource name) → ∀ ty,
      (Expr.node ⟨s, ty⟩).mentioned =
        mentionedIn (s.map (Expr.operand scope)).printedOperands := by
    intro s other ty
    ext id
    constructor
    · rintro ⟨name, mentions, rfl⟩
      cases mentions with
      | itself => exact absurd rfl (other name)
      | operand _ listed inside =>
        rw [Shape.printedOperands_map]
        exact ⟨_, List.mem_map_of_mem listed, name, inside, rfl⟩
    · rintro ⟨x, member, name, mentions, rfl⟩
      rw [Shape.printedOperands_map] at member
      obtain ⟨e, listed, rfl⟩ := List.mem_map.1 member
      exact ⟨name, .operand ⟨s, ty⟩ listed mentions, rfl⟩
  obtain ⟨shape, ty⟩ := n
  cases shape with
  | resource name =>
    ext id
    constructor
    · rintro ⟨name', mentions, rfl⟩
      cases mentions with
      | itself => rfl
      | operand _ listed inside => cases listed
    · rintro rfl
      exact ⟨name, .itself ty, rfl⟩
  | _ => exact passed _ (fun _ same => by cases same) ty

/-- A literal mentions nothing. -/
theorem Expr.mentioned_of_literal? {e : Expr} {value : Literal}
    (found : e.literal? = .ok (some value)) : e.mentioned = ∅ := by
  cases e with
  | dangling => cases found
  | node n =>
    have isLiteral : n.literal? = some value := by simpa [Expr.literal?, Expr.node?] using found
    unfold Node.literal? at isLiteral
    split at isLiteral
    · rename_i form
      rw [Expr.mentioned_node ⟨#[], #[]⟩, Node.mentioned, Node.map, form]
      exact mentionedIn_nil
    · cases isLiteral

theorem Operand.literal?_silent (x : TreeOperand) :
    Gives (fun value? => value?.isSome = true → x.mentioned = ∅) x.literal? := by
  intro value? found isSome
  obtain ⟨value, rfl⟩ := Option.isSome_iff_exists.1 isSome
  exact Expr.mentioned_of_literal? found

/-- Where a character is compared, it stands for a literal. -/
theorem comparedChar?_silent (left right : TreeOperand) :
    Gives (fun c? => c?.isSome = true → right.mentioned = ∅) (comparedChar? left right) := by
  intro c? found isSome
  obtain ⟨c, rfl⟩ := Option.isSome_iff_exists.1 isSome
  obtain ⟨value, isLiteral⟩ := literal?_of_comparedChar? found
  exact Expr.mentioned_of_literal? isLiteral

namespace Node

variable {n : Node TreeOperand} {target : Ty} {operand : TreeOperand}

/-- Where a cast is written around a masked operand, the mask is a literal. -/
theorem mentioned_of_castOperand?
    (chosen : n.castOperand? Operand.literal? target = .ok (some operand)) :
    n.mentioned = operand.mentioned := by
  obtain ⟨right, mask, shape, looked, -⟩ := castOperand?_eq_some_iff_covers.1 chosen
  have silent : right.mentioned = ∅ := Expr.mentioned_of_literal? looked
  rw [mentioned, shape]
  simp [Shape.printedOperands, Shape.operandsOf, silent]

/-- Where the argument of a call is cast in place of the call, the call is made by name. -/
theorem mentioned_of_numericCoercion (chosen : n.numericCoercion target = .castOperand operand) :
    n.mentioned = operand.mentioned := by
  have source := n.numericCoercion_comesFrom target
  rw [chosen] at source
  cases source with
  | castOperand integer fraction isCall =>
    obtain ⟨object, method, shape, truncates⟩ := truncated?_eq_some_iff.1 isCall
    rw [mentioned, shape]
    cases method with
    | math name => exact mentionedIn_singleton _
    | _ => cases truncates

theorem mentioned_of_literal {value : Literal} (isLiteral : n.shape = .literal value) :
    n.mentioned = ∅ := by
  rw [mentioned, isLiteral]
  exact mentionedIn_nil

theorem mentioned_of_select {test positive negative : TreeOperand}
    (isSelect : n.shape = .select test positive negative) :
    n.mentioned = test.mentioned ∪ positive.mentioned ∪ negative.mentioned := by
  rw [mentioned, isSelect]
  simp [Shape.printedOperands, Shape.operandsOf, Set.union_assoc]

end Node

end CppPrinter
