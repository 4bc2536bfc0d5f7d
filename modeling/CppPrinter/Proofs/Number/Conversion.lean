import CppPrinter.Proofs.Expr.Induction
import CppPrinter.Proofs.Number.Mask

/-!
# Conversions between numeric types

Under a numeric type, a conditional hands the conversion on to its branches, so what is converted are the
leaves of a nested conditional, one by one (`Expr.text_coerced_eq_branchwise`), each by the decision that
is taken from its type (`Expr.text_coerced_leaf`). A leaf whose type loses values in the target
(`Ty.loses`) is converted in writing, by a cast or by the suffix of a literal, unless its pair of types is
one that the decision leaves out (`Ty.slipsInto`); then it stands as it is (`lossy_leaf_converted`).
-/

namespace CppPrinter

/-- The values of the type are numbers. -/
def Ty.isNumeric : Ty → Bool
  | integer _ | float | double | floatInt => true
  | _ => false

/-! ### Leaves -/

/-- The expressions that a nested conditional chooses from. -/
def Expr.leaves : Expr → List Expr
  | .dangling => [.dangling]
  | .node ⟨shape, ty⟩ =>
    match shape with
    | .select _ positive negative => (positive ()).leaves ++ (negative ()).leaves
    | _ => [.node ⟨shape, ty⟩]

/-- The text of a nested conditional with a text of their own for its leaves. -/
def Expr.branchwise (scope : Scope) (leaf : Expr → Precedence → Rendered String) :
    Expr → Precedence → Rendered String
  | .dangling, position => leaf .dangling position
  | .node ⟨shape, ty⟩, position =>
    match shape with
    | .select test positive negative => do
      let c ← (test ()).text scope .plain .condOr
      let t ← (positive ()).branchwise scope leaf .select
      let e ← (negative ()).branchwise scope leaf .select
      return Precedence.select.parenthesize position (c ++ " ? " ++ t ++ " : " ++ e)
    | _ => leaf (.node ⟨shape, ty⟩) position

/-- The node is no conditional. -/
def Node.IsLeaf {ρ : Type} (n : Node ρ) : Prop :=
  ∀ test positive negative, n.shape ≠ .select test positive negative

section Leaf

variable {scope : Scope} {target : Ty} {n : Node (Unit → Expr)}

theorem Expr.isLeaf_of_mem_leaves {e : Expr} (member : .node n ∈ e.leaves) : n.IsLeaf := by
  induction e using Expr.induction with
  | dangling => simp [leaves] at member
  | node top ih =>
    obtain ⟨shape, ty⟩ := top
    cases shape with
    | select test positive negative =>
      rw [leaves, List.mem_append] at member
      cases member with
      | inl inPositive => exact ih positive (by simp [Shape.operandsOf]) inPositive
      | inr inNegative => exact ih negative (by simp [Shape.operandsOf]) inNegative
    | _ =>
      obtain rfl : n = _ := by simpa [leaves] using member
      intro test positive negative same
      cases same

/-- A property of all nodes of an expression is one of its leaves. -/
theorem Expr.Every.leaf {property : Node (Unit → Expr) → Prop} {e : Expr} (h : e.Every property)
    (member : .node n ∈ e.leaves) : (Expr.node n).Every property := by
  induction h with
  | dangling => simp [leaves] at member
  | node top here below ih =>
    obtain ⟨shape, ty⟩ := top
    cases shape with
    | select test positive negative =>
      rw [leaves, List.mem_append] at member
      cases member with
      | inl inPositive => exact ih positive (by simp [Shape.operandsOf]) inPositive
      | inr inNegative => exact ih negative (by simp [Shape.operandsOf]) inNegative
    | _ =>
      obtain rfl : n = _ := by simpa [leaves] using member
      exact .node _ here below

/-- A numeric type is no pointer, so only numbers are converted to it. -/
theorem Expr.text_coerced_number (numeric : target.isNumeric = true) (p : Precedence) :
    (Expr.node n).text scope (.coerced target) p =
      (n.map (Expr.operand scope)).valueText scope target p := by
  rw [Expr.text_node]
  show (n.map (Expr.operand scope)).coercedText scope target p = _
  cases target <;> first | rfl | cases numeric

/-- The conversion of a nested conditional is that of its leaves. -/
theorem Expr.text_coerced_eq_branchwise (numeric : target.isNumeric = true) (e : Expr)
    (p : Precedence) :
    e.text scope (.coerced target) p =
      e.branchwise scope (fun leaf q => leaf.text scope (.coerced target) q) p := by
  induction e using Expr.induction generalizing p with
  | dangling => rfl
  | node n ih =>
    obtain ⟨shape, ty⟩ := n
    cases shape with
    | select test positive negative =>
      have first := ih positive (by simp [Shape.operandsOf]) .select
      have second := ih negative (by simp [Shape.operandsOf]) .select
      rw [text_coerced_number numeric, branchwise, ← first, ← second]
      rfl
    | _ => simp only [branchwise]

end Leaf

/-! ### Decisions -/

/-- The text of a leaf by the decision on its conversion. -/
def Node.convertedText (scope : Scope) (target : Ty) (n : Node (Unit → Expr)) (p : Precedence) :
    Rendered String :=
  match n.numericCoercion target with
  | .none => (Expr.node n).text scope .plain p
  | .floatSuffix => do return (← (Expr.node n).text scope .plain .primary) ++ "f"
  | .castSelf => (Expr.node n).text scope (.cast target) p
  | .castOperand operand => (operand ()).text scope (.cast target) .argument

theorem Expr.text_coerced_leaf {scope : Scope} {target : Ty} {n : Node (Unit → Expr)}
    (numeric : target.isNumeric = true) (isLeaf : n.IsLeaf) (p : Precedence) :
    (Expr.node n).text scope (.coerced target) p = n.convertedText scope target p := by
  have number : (n.map (Expr.operand scope)).valueText scope target p =
      (n.map (Expr.operand scope)).numberText scope target p := by
    obtain ⟨shape, ty⟩ := n
    cases shape with
    | select test positive negative => exact absurd rfl (isLeaf test positive negative)
    | _ => rfl
  rw [text_coerced_number numeric, number, Node.numberText, Node.numericCoercion_map,
    Node.convertedText]
  cases n.numericCoercion target with
  | castOperand operand => rfl
  | _ =>
    rw [Expr.text_node]
    rfl

/-! ### Lossy conversions -/

/-- Some values of the type `source` are no values of the type `target`, which is written for 64-bit
integers in narrower ones, for floating numbers in integers, and for doubles in single precision. -/
def Ty.loses (source target : Ty) : Bool :=
  match source, target with
  | .integer source, .integer target => source.width == .w64 && target.width != .w64
  | .float, .integer _ | .double, .integer _ | .floatInt, .integer _ => true
  | .double, .float | .floatInt, .float => true
  | _, _ => false

/-- The lossy pairs that no rule of conversion names. -/
def Ty.slipsInto (source target : Ty) : Bool :=
  match source, target with
  | .integer source, .integer _ => !source.signed
  | .float, .integer _ | .double, .integer _ | .floatInt, .float => true
  | _, _ => false

/-- What a cast to the target may be written around in place of an expression: the operand of a mask
that makes no difference, and the argument of a call that drops the fraction. -/
inductive Expr.StandsFor (target : Ty) : Expr → Expr → Prop where
  | self (e : Expr) : StandsFor target e e
  | masked {n : Node (Unit → Expr)} {x : Unit → Expr}
      (drops : n.castOperand? (fun e => (e ()).literal?) target = .ok (some x)) :
      StandsFor target (x ()) (.node n)
  | truncated {n : Node (Unit → Expr)} {arg : Unit → Expr} {e : Expr}
      (drops : n.truncated? = some arg) (inner : StandsFor target e (arg ())) :
      StandsFor target e (.node n)

/-- The result is the leaf converted in writing: by a cast, or by the suffix of a floating literal. -/
inductive Node.IsConverted (scope : Scope) (target : Ty) (n : Node (Unit → Expr)) :
    Rendered String → Prop where
  | cast {e : Expr} (standsFor : e.StandsFor target (.node n)) :
      IsConverted scope target n (e.castAround scope target)
  | suffix {value : Binary64} (isFloat : target = .float) (isLiteral : n.shape = .literal (.double value)) :
      IsConverted scope target n (do return (← (Literal.double value).text) ++ "f")

section Conversion

variable {scope : Scope} {target : Ty} {n : Node (Unit → Expr)}

/-- Under a cast to a type that can be spelled stands the expression, or what stands for it. -/
theorem Expr.exists_castAround {name : String} (spelled : target.spelling scope false = .ok name)
    {e : Expr} (whole : e.Every Node.MaskExists) (p : Precedence) :
    ∃ x : Expr, x.StandsFor target e ∧
      e.text scope (.cast target) p = x.castAround scope target := by
  cases e with
  | dangling =>
    refine ⟨.dangling, .self _, ?_⟩
    rw [castAround, spelled]
    rfl
  | node n =>
    obtain ⟨operand?, chosen⟩ := whole.parts.1.exists_castOperand? target
    refine ⟨operand?.elim (.node n) (· ()), ?_, text_cast_eq scope chosen p⟩
    cases operand? with
    | none => exact .self _
    | some x => exact .masked chosen

/-- Where a rule names the pair of types, it casts or puts a suffix to a literal. -/
theorem Node.numericCoercion_of_loses (loses : n.ty.loses target = true)
    (named : n.ty.slipsInto target = false) :
    n.numericCoercion target = .castSelf ∨
      (∃ arg, n.truncated? = some arg ∧ n.numericCoercion target = .castOperand arg) ∨
      ∃ value, target = .float ∧ n.ty = .double ∧ n.shape = .literal value ∧
        n.numericCoercion target = .floatSuffix := by
  obtain ⟨shape, ty⟩ := n
  cases target with
  | integer int =>
    cases ty with
    | integer source =>
      simp only [Ty.loses, Bool.and_eq_true, beq_iff_eq, bne_iff_ne] at loses
      simp only [Ty.slipsInto, Bool.not_eq_false'] at named
      left
      have isWide : source = .i64 := by
        obtain ⟨width, signed⟩ := source
        obtain rfl := loses.1
        obtain rfl := named
        rfl
      have isNarrow : int ≠ .i64 := by
        rintro rfl
        exact loses.2 rfl
      exact if_pos ⟨isWide, isNarrow⟩
    | floatInt =>
      cases isCall : (Node.mk shape Ty.floatInt).truncated? with
      | none => exact .inl (by simp only [numericCoercion, isCall])
      | some arg => exact .inr (.inl ⟨arg, rfl, by simp only [numericCoercion, isCall]⟩)
    | float | double => cases named
    | _ => cases loses
  | float =>
    cases ty with
    | double =>
      cases shape with
      | literal value => exact .inr (.inr ⟨value, rfl, rfl, rfl, rfl⟩)
      | _ => exact .inl rfl
    | floatInt => cases named
    | _ => cases loses
  | _ => cases ty <;> cases loses

/-- Where no rule names the pair of types, nothing is done. -/
theorem Node.numericCoercion_of_slips (loses : n.ty.loses target = true)
    (slips : n.ty.slipsInto target = true) : n.numericCoercion target = .none := by
  obtain ⟨shape, ty⟩ := n
  cases target with
  | integer int =>
    cases ty with
    | integer source =>
      simp only [Ty.slipsInto, Bool.not_eq_true'] at slips
      have isUnsigned : source ≠ .i64 := by
        rintro rfl
        cases slips
      exact if_neg fun both => isUnsigned both.1
    | float | double => rfl
    | _ => cases slips
  | float =>
    cases ty with
    | floatInt => rfl
    | _ => cases slips
  | _ => cases ty <;> cases slips

/-- A conversion to a numeric type is that of the leaves of a nested conditional. A leaf whose type loses
values in the target is converted in writing, provided that a literal of double precision is a floating
one, for any other takes the suffix too; only where no rule names the pair of types, it stands as it
is. -/
theorem lossy_leaf_converted (numeric : target.isNumeric = true) {name : String}
    (spelled : target.spelling scope false = .ok name) {e : Expr} (whole : e.Every Node.MaskExists)
    (p : Precedence) :
    e.text scope (.coerced target) p =
      e.branchwise scope (fun leaf q => leaf.text scope (.coerced target) q) p ∧
    ∀ n, .node n ∈ e.leaves → n.ty.loses target = true → ∀ q,
      (n.ty.slipsInto target = false →
        (∀ value, n.ty = .double → n.shape = .literal value → ∃ d, value = .double d) →
        n.IsConverted scope target ((Expr.node n).text scope (.coerced target) q)) ∧
      (∀ value, n.ty = .double → target = .float → n.shape = .literal value →
        (Expr.node n).text scope (.coerced target) q = (do return (← value.text) ++ "f")) ∧
      (n.ty.slipsInto target = true →
        (Expr.node n).text scope (.coerced target) q = (Expr.node n).text scope .plain q) := by
  refine ⟨Expr.text_coerced_eq_branchwise numeric e p, fun n member loses q => ?_⟩
  have isLeaf := Expr.isLeaf_of_mem_leaves member
  have wholeLeaf := whole.leaf member
  rw [Expr.text_coerced_leaf numeric isLeaf]
  refine ⟨?_, ?_, ?_⟩
  · intro named floating
    rw [Node.convertedText]
    obtain isCast | ⟨arg, isCall, isCast⟩ | ⟨value, isFloat, isDouble, isLiteral, isSuffix⟩ :=
      Node.numericCoercion_of_loses loses named
    · obtain ⟨x, standsFor, same⟩ := Expr.exists_castAround spelled wholeLeaf q
      simp only [isCast, same]
      exact .cast standsFor
    · have inner : (arg ()).Every Node.MaskExists :=
        wholeLeaf.parts.2 arg (Node.mem_operandsOf_of_numericCoercion isCast)
      obtain ⟨x, standsFor, same⟩ := Expr.exists_castAround spelled inner .argument
      simp only [isCast, same]
      exact .cast (.truncated isCall standsFor)
    · obtain ⟨d, rfl⟩ := floating value isDouble isLiteral
      have plain : (Expr.node n).text scope .plain .primary = (Literal.double d).text := by
        obtain ⟨shape, ty⟩ := n
        obtain rfl : shape = _ := isLiteral
        rfl
      simp only [isSuffix, plain]
      exact .suffix isFloat isLiteral
  · rintro value isDouble rfl isLiteral
    obtain ⟨shape, ty⟩ := n
    obtain rfl : shape = _ := isLiteral
    obtain rfl : ty = _ := isDouble
    rfl
  · intro slips
    simp only [Node.convertedText, Node.numericCoercion_of_slips loses slips]

end Conversion

/-- A wide number, or a number without its fraction, whichever a condition chooses. -/
def chosenNumber : Expr :=
  .node ⟨.select (fun _ => localNumber "wide" .bool) (fun _ => .node maskedTotal)
    (fun _ => .node ⟨.call (fun _ => .node ⟨.symbol .math, .void⟩) (.library (.math "Truncate"))
      [fun _ => localNumber "x" .double], .floatInt⟩), .integer .i64⟩

theorem lossy_leaf_converted_chosen :
    (Ty.integer ⟨.w8, false⟩).isNumeric = true ∧
    (Ty.integer ⟨.w8, false⟩).spelling ⟨#[], #[]⟩ false = .ok "uint8_t" ∧
    chosenNumber.Every Node.MaskExists ∧
    chosenNumber.text ⟨#[], #[]⟩ (.coerced (.integer ⟨.w8, false⟩)) .statement =
      .ok "wide ? static_cast<uint8_t>(total) : static_cast<uint8_t>(x)" ∧
    ∀ n, .node n ∈ chosenNumber.leaves → n.ty.loses (.integer ⟨.w8, false⟩) = true ∧
      n.IsConverted ⟨#[], #[]⟩ (.integer ⟨.w8, false⟩)
        ((Expr.node n).text ⟨#[], #[]⟩ (.coerced (.integer ⟨.w8, false⟩)) .select) := by
  have leafWhole (shape : Shape (Unit → Expr)) (ty : Ty) (noOperand : shape.operandsOf = [])
      (noMask : (Node.mk shape ty).mask? = none) : (Expr.node ⟨shape, ty⟩).Every Node.MaskExists := by
    refine .node _ (Node.maskExists_of_none noMask) ?_
    rw [noOperand]
    exact List.forall_mem_nil _
  have whole : chosenNumber.Every Node.MaskExists := by
    refine .node _ (Node.maskExists_of_none rfl) ?_
    simp only [Shape.operandsOf, List.forall_mem_cons]
    refine ⟨leafWhole _ _ rfl rfl, ?_, ?_, List.forall_mem_nil _⟩
    · refine .node _ maskExists_maskedTotal ?_
      simp only [maskedTotal, Shape.operandsOf, List.forall_mem_cons]
      exact ⟨leafWhole _ _ rfl rfl, leafWhole _ _ rfl rfl, List.forall_mem_nil _⟩
    · refine .node _ (Node.maskExists_of_none rfl) ?_
      simp only [Shape.operandsOf, List.forall_mem_cons]
      exact ⟨leafWhole _ _ rfl rfl, leafWhole _ _ rfl rfl, List.forall_mem_nil _⟩
  have spelled : (Ty.integer ⟨.w8, false⟩).spelling ⟨#[], #[]⟩ false = .ok "uint8_t" := rfl
  obtain ⟨-, leaf⟩ := lossy_leaf_converted rfl spelled whole .statement
  refine ⟨rfl, spelled, whole, rfl, fun n member => ?_⟩
  have loses : n.ty.loses (.integer ⟨.w8, false⟩) = true ∧
      n.ty.slipsInto (.integer ⟨.w8, false⟩) = false ∧ n.ty ≠ .double := by
    simp only [chosenNumber, maskedTotal, Expr.leaves, List.cons_append, List.nil_append,
      List.mem_cons, Expr.node.injEq, List.not_mem_nil, or_false] at member
    rcases member with rfl | rfl <;> decide
  obtain ⟨isLossy, named, noDouble⟩ := loses
  exact ⟨isLossy, (leaf n member isLossy .select).1 named fun _ isDouble => absurd isDouble noDouble⟩

/-- A double becomes an integer without a word. -/
theorem double_slips_into_integer :
    Ty.i32.isNumeric = true ∧ Ty.i32.spelling ⟨#[], #[]⟩ false = .ok "int32_t" ∧
    (localNumber "d" .double).leaves = [localNumber "d" .double] ∧
    Ty.double.loses .i32 = true ∧
    (localNumber "d" .double).text ⟨#[], #[]⟩ (.coerced .i32) .statement = .ok "d" ∧
    ¬ Node.IsConverted ⟨#[], #[]⟩ .i32 ⟨.symbol (.localName "d"), .double⟩ (.ok "d") := by
  refine ⟨rfl, rfl, rfl, rfl, rfl, fun converted => ?_⟩
  generalize result : (Except.ok "d" : Rendered String) = r at converted
  cases converted with
  | @cast e standsFor =>
    obtain ⟨ty, spelled, inner, printed, same⟩ : ∃ ty, Ty.i32.spelling ⟨#[], #[]⟩ false = .ok ty ∧
        ∃ inner, e.text ⟨#[], #[]⟩ .plain .argument = .ok inner ∧
          "static_cast<" ++ ty ++ ">(" ++ inner ++ ")" = "d" := by
      simpa [Expr.castAround] using result.symm
    have longer := congrArg String.length same
    have front : "static_cast<".length = 12 := by decide
    have all : "d".length = 1 := by decide
    simp only [String.length_append] at longer
    omega
  | suffix isFloat => cases isFloat

end CppPrinter
