import CppPrinter.Expr.Character
import CppPrinter.Expr.Coercion
import CppPrinter.Proofs.Result

/-!
# Decisions on conversions

From what a decision came to, one can tell the node that it was taken on: a mask or a call that drops a
fraction (`Node.mask?_eq_some_iff`, `Node.truncated?_eq_some_iff`), the masked operand that a cast is
written around (`Node.castOperand?_eq_some_iff_covers`), and the pair of types of a numeric conversion
(`Node.numericCoercion_comesFrom`). A decision takes over operands and does not depend on what they are
known by, so it commutes with their replacement (`Node.numericCoercion_map`).
-/

namespace CppPrinter

namespace Node

variable {ρ : Type} {n : Node ρ} {target : Ty} {operand : ρ}

theorem mask?_eq_some_iff {left right : ρ} :
    n.mask? = some (left, right) ↔ n.shape = .binary (.arith .bitAnd) left right := by
  constructor
  · intro isMask
    unfold mask? at isMask
    split at isMask
    · rename_i shape
      cases isMask
      exact shape
    · cases isMask
  · intro shape
    simp only [mask?, shape]

theorem truncated?_eq_some_iff :
    n.truncated? = some operand ↔
      ∃ object method, n.shape = .call object (.library method) [operand] ∧ method.isTruncate = true := by
  constructor
  · intro isCall
    unfold truncated? at isCall
    split at isCall
    · rename_i object method arg shape
      split at isCall <;> cases isCall
      rename_i truncates
      exact ⟨object, method, shape, truncates⟩
    · cases isCall
  · rintro ⟨object, method, shape, truncates⟩
    simp only [truncated?, shape, truncates, if_true]

/-- A cast is written around the operand of a mask that is a literal and covers the target. -/
theorem castOperand?_eq_some_iff_covers {literal? : ρ → Rendered (Option Literal)} :
    n.castOperand? literal? target = .ok (some operand) ↔
      ∃ right mask, n.shape = .binary (.arith .bitAnd) operand right ∧
        literal? right = .ok (some mask) ∧ mask.coversMask target = true := by
  constructor
  · intro chosen
    unfold castOperand? at chosen
    split at chosen
    · cases chosen
    · rename_i left right isMask
      obtain ⟨mask?, looked, chosen⟩ := bind_eq_ok_iff.1 chosen
      cases mask? with
      | none => cases chosen
      | some mask =>
        simp only [pure_eq_ok, Except.ok.injEq, Option.ite_none_right_eq_some, Option.some.injEq]
          at chosen
        obtain ⟨covers, rfl⟩ := chosen
        exact ⟨right, mask, mask?_eq_some_iff.1 isMask, looked, covers⟩
  · rintro ⟨right, mask, shape, looked, covers⟩
    simp [castOperand?, mask?_eq_some_iff.2 shape, looked, covers]

/-- The types and the shape with which a value is converted in this way. -/
inductive ComesFrom (target : Ty) (n : Node ρ) : NumericCoercion ρ → Prop where
  | none : ComesFrom target n .none
  | floatSuffix {value : Literal} (single : target = .float) (double : n.ty = .double)
      (isLiteral : n.shape = .literal value) : ComesFrom target n .floatSuffix
  | castWide {int : IntegerType} (narrow : target = .integer int) (noWide : int ≠ .i64)
      (wide : n.ty = .integer .i64) : ComesFrom target n .castSelf
  | castDouble (single : target = .float) (double : n.ty = .double) : ComesFrom target n .castSelf
  | castFraction {int : IntegerType} (integer : target = .integer int) (fraction : n.ty = .floatInt)
      (noCall : n.truncated? = .none) : ComesFrom target n .castSelf
  | castOperand {int : IntegerType} {arg : ρ} (integer : target = .integer int)
      (fraction : n.ty = .floatInt) (isCall : n.truncated? = some arg) :
      ComesFrom target n (.castOperand arg)

theorem numericCoercion_comesFrom (target : Ty) (n : Node ρ) :
    n.ComesFrom target (n.numericCoercion target) := by
  unfold numericCoercion
  split
  · rename_i int source isSource
    split
    · rename_i both
      obtain ⟨rfl, noWide⟩ := both
      exact .castWide rfl noWide isSource
    · exact .none
  · rename_i double
    split
    · rename_i isLiteral
      obtain ⟨shape, ty⟩ := n
      cases shape with
      | literal value => exact .floatSuffix rfl double rfl
      | _ => cases isLiteral
    · exact .castDouble rfl double
  · rename_i fraction
    split
    · rename_i arg isCall
      exact .castOperand rfl fraction isCall
    · rename_i noCall
      exact .castFraction rfl fraction noCall
  · exact .none

end Node

/-! ### Other operands -/

/-- Replaces the operand that is cast. -/
def NumericCoercion.map {α β : Type} (f : α → β) : NumericCoercion α → NumericCoercion β
  | none => .none
  | floatSuffix => .floatSuffix
  | castSelf => .castSelf
  | castOperand operand => .castOperand (f operand)

namespace Node

variable {α β : Type} (f : α → β) (n : Node α)

theorem literal?_map : (n.map f).literal? = n.literal? := by
  obtain ⟨shape, ty⟩ := n
  cases shape <;> rfl

theorem isIndexing_map : (n.map f).isIndexing = n.isIndexing := by
  obtain ⟨shape, ty⟩ := n
  cases shape with
  | binary op left right => cases op <;> rfl
  | _ => rfl

theorem plainChar?_map : (n.map f).plainChar? = n.plainChar? := by
  rw [plainChar?, literal?_map, plainChar?]

theorem truncated?_map : (n.map f).truncated? = n.truncated?.map f := by
  obtain ⟨shape, ty⟩ := n
  cases shape with
  | call object method args =>
    cases method with
    | user => rfl
    | library method =>
      match args with
      | [] => rfl
      | [arg] => cases truncates : method.isTruncate <;> simp [truncated?, map, Shape.map, truncates]
      | _ :: _ :: _ => rfl
  | _ => rfl

/-- The decision is taken from the node and does not look at operands. -/
theorem numericCoercion_map (target : Ty) :
    (n.map f).numericCoercion target = (n.numericCoercion target).map f := by
  have sameLiteral := literal?_map f n
  have sameCall := truncated?_map f n
  have sameTy : (n.map f).ty = n.ty := rfl
  unfold numericCoercion
  rw [sameTy, sameLiteral, sameCall]
  split
  · split <;> rfl
  · split <;> rfl
  · cases n.truncated? <;> rfl
  · rfl

theorem isPromoted_map : (n.map f).isPromoted = n.isPromoted := by
  obtain ⟨shape, ty⟩ := n
  cases shape <;> rfl

theorem indexedStore_map (element : Ty) : (n.map f).indexedStore element = n.indexedStore element := by
  have sameTy : (n.map f).ty = n.ty := rfl
  rw [indexedStore, isPromoted_map, sameTy, indexedStore]

theorem mask?_map : (n.map f).mask? = n.mask?.map (Prod.map f f) := by
  obtain ⟨shape, ty⟩ := n
  cases shape with
  | binary op left right =>
    cases op with
    | arith op => cases op <;> rfl
    | _ => rfl
  | _ => rfl

/-- The choice of the operand looks at operands through what they are made from. -/
theorem castOperand?_map (literal? : β → Rendered (Option Literal)) (target : Ty) :
    (n.map f).castOperand? literal? target =
      (n.castOperand? (literal? ∘ f) target).map (Option.map f) := by
  unfold castOperand?
  rw [mask?_map]
  cases n.mask? with
  | none => rfl
  | some operands =>
    obtain ⟨left, right⟩ := operands
    simp only [Option.map_some, Prod.map_apply, Function.comp_apply]
    cases literal? (f right) with
    | error e => rfl
    | ok l? =>
      cases l? with
      | none => rfl
      | some value => cases covers : value.coversMask target <;> simp [covers, Except.map]

end Node

end CppPrinter
