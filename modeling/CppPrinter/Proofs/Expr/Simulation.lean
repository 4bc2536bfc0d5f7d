import CppPrinter.Proofs.Expr.Coercion
import CppPrinter.Proofs.Expr.Tree
import CppPrinter.Proofs.Result

/-!
# One expression known in two ways

An expression may be known by a `ρ` or by a `σ`, such as its position and its tree. If whoever looks at
it finds the same node either way (`Simulation`), then every rule of printing gives the same text from
both kinds of operands, and fails in the same way: a rule compares types, literals and shapes of its
operands, all of which the node shows, and takes over their texts. The lemmas follow the rules one by
one up to `Simulation.text_along`.
-/

namespace CppPrinter

variable {ρ σ : Type}

/-- The operand known in another way, with the same texts. -/
def Operand.along (f : ρ → σ) (x : Operand ρ) : Operand σ := ⟨f x.expr, x.text⟩

/-- Arguments are printed without a look at them. -/
theorem argumentTexts_along (f : ρ → σ) (params : List Ty) (args : List (Operand ρ)) :
    argumentTexts params (args.map (.along f)) = argumentTexts params args := by
  induction args generalizing params with
  | nil => cases params <;> rfl
  | cons arg args ih => cases params <;> simp only [List.map_cons, argumentTexts, ih] <;> rfl

theorem argumentsText_along (f : ρ → σ) (params : List Ty) (args : List (Operand ρ)) :
    argumentsText params (args.map (.along f)) = argumentsText params args := by
  rw [argumentsText, argumentTexts_along, argumentsText]

theorem aggregateText_along (f : ρ → σ) (ty : Ty) (items : List (Operand ρ)) :
    aggregateText ty (items.map (.along f)) = aggregateText ty items := by
  unfold aggregateText
  simp only [argumentsText_along, List.map_map]
  rfl

/-- Looking at an expression before and after it is replaced shows the same node. -/
structure Simulation [Viewable ρ] [Viewable σ] (f : ρ → σ) : Prop where
  node? : ∀ e, Viewable.node? (f e) = (Viewable.node? e).map (Node.map f)

namespace Simulation

variable [Viewable ρ] [Viewable σ] {f : ρ → σ} (sim : Simulation f)

include sim

/-! ### What is seen of an operand -/

theorem ty? (e : ρ) : Viewable.ty? (f e) = Viewable.ty? e := by
  rw [Viewable.ty?, sim.node?, Viewable.ty?]
  cases Viewable.node? e <;> rfl

theorem node?_along (x : Operand ρ) : (x.along f).node? = x.node?.map (Node.map f) :=
  sim.node? x.expr

theorem ty?_along (x : Operand ρ) : (x.along f).ty? = x.ty? := sim.ty? x.expr

theorem literal?_along (x : Operand ρ) : (x.along f).literal? = x.literal? := by
  rw [Operand.literal?, sim.node?_along, Operand.literal?]
  cases x.node? with
  | error e => rfl
  | ok n => exact congrArg Except.ok (Node.literal?_map f n)

/-! ### Operators -/

theorem assignedText_along (left right : Operand ρ) :
    assignedText (left.along f) (right.along f) = assignedText left right := by
  unfold assignedText
  rw [sim.node?_along, sim.node?_along]
  cases left.node? with
  | error e => rfl
  | ok target =>
    show (if (target.map f).isIndexing then _ else _) = if target.isIndexing then _ else _
    rw [Node.isIndexing_map]
    cases right.node? with
    | error e => rfl
    | ok value =>
      show (if _ then (value.map f).indexedStore target.ty >>= _ else _) = _
      rw [Node.indexedStore_map]
      rfl

theorem comparedChar?_along (left right : Operand ρ) :
    comparedChar? (left.along f) (right.along f) = comparedChar? left right := by
  unfold comparedChar?
  rw [sim.node?_along, sim.node?_along]
  cases left.node? with
  | error e => rfl
  | ok n =>
    obtain ⟨shape, ty⟩ := n
    cases shape with
    | binary op text index =>
      cases op with
      | index =>
        show (Viewable.ty? (f text) >>= _) = (Viewable.ty? text >>= _)
        rw [sim.ty?]
        cases right.node? with
        | error e => rfl
        | ok value => simp only [Except.map, ok_bind, Node.plainChar?_map]
      | _ => rfl
    | _ => rfl

theorem comparisonText_along (level : Precedence) (symbol : String) (left right : Operand ρ)
    (position : Precedence) :
    comparisonText level symbol (left.along f) (right.along f) position =
      comparisonText level symbol left right position := by
  unfold comparisonText
  rw [sim.comparedChar?_along]
  rfl

theorem equalityText_along (scope : Scope) (symbol : String) (left right : Operand ρ)
    (position : Precedence) :
    equalityText scope symbol (left.along f) (right.along f) position =
      equalityText scope symbol left right position := by
  unfold equalityText
  rw [sim.ty?_along, sim.ty?_along, sim.comparisonText_along]
  rfl

theorem binaryText_along (scope : Scope) (op : BinaryOp) (left right : Operand ρ)
    (position : Precedence) :
    binaryText scope op (left.along f) (right.along f) position =
      binaryText scope op left right position := by
  cases op with
  | order op => exact sim.comparisonText_along .rel op.symbol left right position
  | eq => exact sim.equalityText_along scope "==" left right position
  | notEq => exact sim.equalityText_along scope "!=" left right position
  | assign =>
    show assignText _ _ _ = assignText _ _ _
    rw [assignText, sim.assignedText_along, assignText]
    rfl
  | _ => rfl

/-! ### Calls and members -/

theorem memberText_along (object : Operand ρ) (target : Symbol) :
    memberText (object.along f) target = memberText object target := by
  unfold memberText
  rw [sim.ty?_along]
  rfl

theorem methodCallText_along (method : Signature) (object : Operand ρ) (args : List (Operand ρ)) :
    methodCallText method (object.along f) (args.map (.along f)) =
      methodCallText method object args := by
  unfold methodCallText
  rw [sim.ty?_along, argumentsText_along]
  rfl

theorem stringCallText_along (name : String) (params : List Ty) (object : Operand ρ)
    (args : List (Operand ρ)) :
    stringCallText name params (object.along f) (args.map (.along f)) =
      stringCallText name params object args := by
  unfold stringCallText
  rw [sim.literal?_along, argumentsText_along]
  rfl

theorem offsetPointerText_along (array offset : Operand ρ) :
    offsetPointerText (array.along f) (offset.along f) = offsetPointerText array offset := by
  unfold offsetPointerText
  rw [sim.literal?_along]
  rfl

theorem copyCallText_along (source : Operand ρ) (args : List (Operand ρ)) :
    copyCallText (source.along f) (args.map (.along f)) = copyCallText source args := by
  match args with
  | [sourceOffset, target, targetOffset, count] =>
    simp only [List.map_cons, List.map_nil, copyCallText, sim.offsetPointerText_along]
    rfl
  | [] | [_] | [_, _] | [_, _, _] => rfl
  | _ :: _ :: _ :: _ :: _ :: _ => simp [copyCallText]

theorem decodeCallText_along (args : List (Operand ρ)) :
    decodeCallText (args.map (.along f)) = decodeCallText args := by
  match args with
  | [bytes, offset, length] =>
    simp only [List.map_cons, List.map_nil, decodeCallText, sim.offsetPointerText_along]
    rfl
  | [] | [_] | [_, _] => rfl
  | _ :: _ :: _ :: _ :: _ => simp [decodeCallText]

theorem libraryCallText_along (method : LibraryMethod) (object : Operand ρ) (args : List (Operand ρ))
    (position : Precedence) :
    libraryCallText method (object.along f) (args.map (.along f)) position =
      libraryCallText method object args position := by
  cases method with
  | math name =>
    show mathCallText _ _ = mathCallText _ _
    rw [mathCallText, argumentsText_along, List.map_map, mathCallText]
    rfl
  | stringContains | stringStartsWith | stringEndsWith | stringSubstring =>
    simp only [libraryCallText, sim.stringCallText_along]
  | stringIndexOf | stringLastIndexOf =>
    simp only [libraryCallText, positionCallText, sim.stringCallText_along]
  | arrayCopyTo => exact sim.copyCallText_along object args
  | utf8GetString => exact sim.decodeCallText_along args
  | other name => rfl

theorem callText_along (scope : Scope) (method : MethodRef) (object : Operand ρ)
    (args : List (Operand ρ)) (position : Precedence) :
    callText scope method (object.along f) (args.map (.along f)) position =
      callText scope method object args position := by
  cases method with
  | user owner index => simp only [callText, sim.methodCallText_along]
  | library method => exact sim.libraryCallText_along method object args position

/-! ### Nodes -/

variable (scope : Scope) (n : Node (Operand ρ))

theorem plainText_along (position : Precedence) :
    (n.map (.along f)).plainText scope position = n.plainText scope position := by
  obtain ⟨shape, ty⟩ := n
  cases shape with
  | member object target => exact sim.memberText_along object target
  | binary op left right => exact sim.binaryText_along scope op left right position
  | call object method args => exact sim.callText_along scope method object args position
  | aggregate items => exact aggregateText_along f ty items
  | _ => rfl

theorem arrayPointerText_along (position : Precedence) :
    (n.map (.along f)).arrayPointerText scope position = n.arrayPointerText scope position := by
  unfold Node.arrayPointerText
  simp only [sim.plainText_along]
  rfl

theorem castText_along (target : Ty) :
    (n.map (.along f)).castText scope target = n.castText scope target := by
  have seen : Operand.literal? ∘ Operand.along f = (Operand.literal? : Operand ρ → _) :=
    funext sim.literal?_along
  unfold Node.castText
  rw [Node.castOperand?_map, seen, sim.plainText_along]
  cases n.castOperand? Operand.literal? target with
  | error e => rfl
  | ok operand? => cases operand? <;> rfl

theorem numberText_along (target : Ty) (position : Precedence) :
    (n.map (.along f)).numberText scope target position = n.numberText scope target position := by
  unfold Node.numberText
  rw [Node.numericCoercion_map]
  simp only [sim.plainText_along, sim.castText_along]
  cases n.numericCoercion target <;> rfl

theorem valueText_along (target : Ty) (position : Precedence) :
    (n.map (.along f)).valueText scope target position = n.valueText scope target position := by
  have number := sim.numberText_along scope n target position
  obtain ⟨shape, ty⟩ := n
  cases shape with
  | select test positive negative => rfl
  | _ => exact number

theorem coercedText_along (target : Ty) (position : Precedence) :
    (n.map (.along f)).coercedText scope target position = n.coercedText scope target position := by
  unfold Node.coercedText
  simp only [sim.plainText_along, sim.valueText_along, sim.arrayPointerText_along]
  rfl

/-- A node is printed alike from operands that are known in either way. -/
theorem text_along (form : Form) (position : Precedence) :
    (n.map (.along f)).text scope form position = n.text scope form position := by
  cases form with
  | plain => exact sim.plainText_along scope n position
  | coerced target => exact sim.coercedText_along scope n target position
  | cast target => exact sim.castText_along scope n target
  | arrayPointer => exact sim.arrayPointerText_along scope n position

end Simulation

end CppPrinter
