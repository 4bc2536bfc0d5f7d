import CppPrinter.Proofs.Expr.Coercion
import CppPrinter.Proofs.Expr.Rule

/-!
# References to members

A member of a class or an enumeration is referred to as a symbol, through an object, or by a call. What is
printed is its name in camel case, with nothing around it but the way to reach it and the arguments of the
call (`Node.plainText_reference`), and where the reference has to be converted, the conversion around that
(`Node.text_reference`).
-/

namespace CppPrinter

/-- What refers to a member of a class or an enumeration: fields, constants and values by their names,
methods by their positions. -/
inductive Reference where
  | field (owner : ClassId) (name : String)
  | constant (owner : ClassId) (name : String)
  | enumValue (owner : EnumId) (name : String)
  | method (owner : ClassId) (index : Nat)

/-- The name of the member that is referred to. -/
def Reference.name? (scope : Scope) : Reference → Rendered String
  | field _ name | constant _ name | enumValue _ name => .ok name
  | method owner index => Signature.name <$> scope.method owner index

def Symbol.reference? : Symbol → Option Reference
  | field owner name => some (.field owner name)
  | constant owner name => some (.constant owner name)
  | enumValue owner name => some (.enumValue owner name)
  | _ => none

namespace Shape

/-- The member that a shape refers to, from inside or through an object. -/
def reference? {ρ : Type} : Shape ρ → Option Reference
  | .symbol target | .member _ target => target.reference?
  | .call _ (.user owner index) _ => some (.method owner index)
  | _ => none

/-- What stands around the name of the member that a shape refers to. -/
inductive Surrounds (scope : Scope) : Shape (Unit → Expr) → String → String → Prop where
  | ownField {owner : ClassId} {name : String} :
      Surrounds scope (.symbol (.field owner name)) "this->" ""
  | ownConstant {owner : ClassId} {name : String} :
      Surrounds scope (.symbol (.constant owner name)) "" ""
  | enumValue {owner : EnumId} {name enum : String} (found : scope.enumName owner = .ok enum) :
      Surrounds scope (.symbol (.enumValue owner name)) (enum ++ "::") ""
  | member {object : Unit → Expr} {target : Symbol} {receiver op : String}
      (printed : (object ()).text scope .plain .primary = .ok receiver)
      (reached : (Expr.operand scope object).reach? target.isScoped = .ok op) :
      Surrounds scope (.member object target) (receiver ++ op) ""
  | call {object : Unit → Expr} {owner : ClassId} {index : Nat} {args : List (Unit → Expr)}
      {method : Signature} {receiver op arguments : String}
      (found : scope.method owner index = .ok method)
      (printed : (object ()).text scope .plain .primary = .ok receiver)
      (reached : (Expr.operand scope object).reach? (method.dispatch = .static) = .ok op)
      (listed : argumentsText (method.params.map Param.ty) (args.map (Expr.operand scope)) = .ok arguments) :
      Surrounds scope (.call object (.user owner index) args) (receiver ++ op) ("(" ++ arguments ++ ")")

end Shape

/-- However a shape refers to a member, the name of the member is printed in camel case. -/
theorem Node.plainText_reference {scope : Scope} {n : Node (Unit → Expr)} {r : Reference} {name text : String}
    {position : Precedence} (refers : n.shape.reference? = some r) (named : r.name? scope = .ok name)
    (printed : (Expr.node n).text scope .plain position = .ok text) :
    ∃ lead tail, n.shape.Surrounds scope lead tail ∧ text = lead ++ camelCase name ++ tail := by
  obtain ⟨shape, ty⟩ := n
  rw [Expr.text_node] at printed
  cases shape with
  | symbol target =>
    have spelled : target.text scope = .ok text := printed
    cases target with
    | field owner name' =>
      cases refers; cases named; cases spelled
      exact ⟨_, _, .ownField, by simp⟩
    | constant owner name' =>
      cases refers; cases named; cases spelled
      exact ⟨_, _, .ownConstant, by simp⟩
    | enumValue owner name' =>
      cases refers; cases named
      obtain ⟨enum, found, result⟩ := bind_eq_ok_iff.1 spelled
      cases result
      exact ⟨_, _, .enumValue found, by simp⟩
    | _ => cases refers
  | member object target =>
    have spelled : memberText (Expr.operand scope object) target = .ok text := printed
    have noLength : target ≠ .stringLength := by
      rintro rfl
      cases refers
    have known : target.memberName = .ok (camelCase name) := by
      cases target <;> cases refers <;> cases named <;> rfl
    rw [memberText_eq noLength, known, ok_bind] at spelled
    obtain ⟨receiver, inner, spelled⟩ := bind_eq_ok_iff.1 spelled
    obtain ⟨op, reached, result⟩ := bind_eq_ok_iff.1 spelled
    cases result
    exact ⟨_, _, .member inner reached, by simp⟩
  | call object method args =>
    cases method with
    | library method => cases refers
    | user owner index =>
      cases refers
      have spelled : callText scope (.user owner index) (Expr.operand scope object)
        (args.map (Expr.operand scope)) position = .ok text := printed
      obtain ⟨method, found, spelled⟩ := bind_eq_ok_iff.1 spelled
      obtain ⟨method', found', rfl⟩ := map_eq_ok_iff.1 named
      obtain rfl : method = method' := Except.ok.inj (found.symm.trans found')
      rw [methodCallText_eq] at spelled
      obtain ⟨op, reached, spelled⟩ := bind_eq_ok_iff.1 spelled
      obtain ⟨receiver, inner, spelled⟩ := bind_eq_ok_iff.1 spelled
      obtain ⟨arguments, listed, result⟩ := bind_eq_ok_iff.1 spelled
      cases result
      exact ⟨_, _, .call found inner reached listed, by simp [String.append_assoc]⟩
  | _ => cases refers

/-- What a conversion of a reference writes around it. -/
inductive Conversion : String → String → Prop where
  | none : Conversion "" ""
  | address : Conversion "&" ""
  | rawPointer : Conversion "" ".get()"
  | firstElement : Conversion "" ".data()"
  | cast (ty : String) : Conversion ("static_cast<" ++ ty ++ ">(") ")"

section Forms

variable {scope : Scope} {n : Node TreeOperand} {r : Reference} {text : String}

/-- A reference as it stands needs no parentheses anywhere. -/
theorem Node.plainText_congr (refers : n.shape.reference? = some r) (p q : Precedence) :
    n.plainText scope p = n.plainText scope q := by
  obtain ⟨shape, ty⟩ := n
  cases shape with
  | symbol | member => rfl
  | call object method args =>
    cases method with
    | user => rfl
    | library => cases refers
  | _ => cases refers

/-- The text is a reference as it stands, inside a conversion. -/
def Node.Converts (scope : Scope) (n : Node TreeOperand) (text : String) : Prop :=
  ∃ before plain after, Conversion before after ∧ (∀ position, n.plainText scope position = .ok plain) ∧
    text = before ++ plain ++ after

namespace Node.Converts

/-- What is written around the text at any position is a conversion. -/
theorem of_around (scope : Scope) (position : Precedence) {before after : String}
    (refers : n.shape.reference? = some r) (conversion : Conversion before after) : Gives (n.Converts scope)
      (do return before ++ (← n.plainText scope position) ++ after) := by
  intro text printed
  obtain ⟨plain, inner, result⟩ := bind_eq_ok_iff.1 printed
  cases result
  exact ⟨before, plain, after, conversion, fun q => n.plainText_congr refers q position ▸ inner, rfl⟩

theorem plain {position : Precedence} (refers : n.shape.reference? = some r) :
    Gives (n.Converts scope) (n.plainText scope position) := by
  have whole := of_around scope position refers .none
  simpa only [String.empty_append, String.append_empty, bind_pure] using whole

theorem arrayPointer {position : Precedence} (refers : n.shape.reference? = some r) :
    Gives (n.Converts scope) (n.arrayPointerText scope position) := by
  unfold arrayPointerText
  split
  · simpa using of_around scope .primary refers .firstElement
  · simpa using of_around scope .primary refers .rawPointer
  · exact plain refers

theorem cast {target : Ty} (refers : n.shape.reference? = some r) :
    Gives (n.Converts scope) (n.castText scope target) := by
  have noMask : n.castOperand? Operand.literal? target = .ok none := by
    obtain ⟨shape, ty⟩ := n
    cases shape <;> first | rfl | cases refers
  rw [castText, noMask, ok_bind]
  refine .after fun ty => ?_
  simpa [String.append_assoc] using of_around scope .argument refers (.cast ty)

theorem value {target : Ty} {position : Precedence} (refers : n.shape.reference? = some r) :
    Gives (n.Converts scope) (n.valueText scope target position) := by
  have noSelect : n.valueText scope target position = n.numberText scope target position := by
    obtain ⟨shape, ty⟩ := n
    cases shape <;> first | rfl | cases refers
  rw [noSelect, numberText]
  have conversion := n.numericCoercion_comesFrom target
  revert conversion
  generalize n.numericCoercion target = chosen
  rintro (_ | @⟨literal, -, -, isLiteral⟩ | _ | _ | _ | @⟨int, arg, -, -, isCall⟩)
  · exact plain refers
  · rw [isLiteral] at refers
    cases refers
  · exact cast refers
  · exact cast refers
  · exact cast refers
  · obtain ⟨object, method, isCall, -⟩ := truncated?_eq_some_iff.1 isCall
    rw [isCall] at refers
    cases refers

theorem coerced {target : Ty} {position : Precedence} (refers : n.shape.reference? = some r) :
    Gives (n.Converts scope) (n.coercedText scope target position) := by
  unfold coercedText
  split
  · exact value refers
  · exact value refers
  · simpa using of_around scope .primary refers .address
  · simpa using of_around scope .primary refers .rawPointer
  · exact arrayPointer refers
  · exact value refers

theorem anyForm {form : Form} {position : Precedence} (refers : n.shape.reference? = some r) :
    Gives (n.Converts scope) (n.text scope form position) := by
  cases form with
  | plain => exact plain refers
  | coerced target => exact coerced refers
  | cast target => exact cast refers
  | arrayPointer => exact arrayPointer refers

end Node.Converts

end Forms

theorem Shape.reference?_map {α β : Type} (f : α → β) (shape : Shape α) :
    (shape.map f).reference? = shape.reference? := by
  cases shape with
  | call object method args => cases method <;> rfl
  | _ => rfl

/-- A reference is printed in every form as it stands, inside a conversion. -/
theorem Node.text_reference {scope : Scope} {n : Node (Unit → Expr)} {r : Reference} {text : String}
    {form : Form} {position : Precedence} (refers : n.shape.reference? = some r)
    (printed : (Expr.node n).text scope form position = .ok text) :
    ∃ before plain after, Conversion before after ∧
      (∀ position, (Expr.node n).text scope .plain position = .ok plain) ∧
      text = before ++ plain ++ after := by
  rw [Expr.text_node] at printed ⊢
  exact Converts.anyForm (n := n.map (Expr.operand scope))
    ((Shape.reference?_map _ _).trans refers) text printed

end CppPrinter
