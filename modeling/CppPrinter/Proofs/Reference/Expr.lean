import CppPrinter.Proofs.Expr.Rule
import CppPrinter.Proofs.Reference.Basic

/-!
# Expressions whose references resolve

An expression resolves when every node in it does and no operand is missing (`Expr.Resolves`). The
text of an expression, in every form, is grounded: each rule of printing is a chain of looks at
operands and of their texts, so it is grounded as long as the operands are (`Operand.Grounded`).
-/

namespace CppPrinter

/-- Every node of the expression resolves, and none is missing. -/
inductive Expr.Resolves (scope : Scope) : Expr → Prop where
  | node (n : Node (Unit → Expr)) (here : n.Resolves scope)
      (below : ∀ e ∈ n.shape.operandsOf, Expr.Resolves scope (e ())) : Expr.Resolves scope (.node n)

namespace Expr

variable {fits : Prop} {scope : Scope} {e : Expr}

theorem Resolves.parts {n : Node (Unit → Expr)} (h : (Expr.node n).Resolves scope) :
    n.Resolves scope ∧ ∀ e ∈ n.shape.operandsOf, (e ()).Resolves scope := by
  cases h with
  | node n here below => exact ⟨here, below⟩

theorem Resolves.of_node? {n : Node (Unit → Expr)} (h : e.Resolves scope)
    (looked : e.node? = .ok n) :
    n.Resolves scope ∧ ∀ e ∈ n.shape.operandsOf, (e ()).Resolves scope := by
  cases h with
  | node n here below =>
    cases looked
    exact ⟨here, below⟩

theorem Resolves.of_ty? {ty : Ty} (h : e.Resolves scope) (looked : e.ty? = .ok ty) :
    ty.Resolves scope := by
  obtain ⟨n, isNode, result⟩ := bind_eq_ok_iff.1 looked
  cases result
  exact (h.of_node? isNode).1.ty

theorem node?_grounded (h : fits → e.Resolves scope) : Grounded fits e.node? := by
  cases e with
  | node n => exact .ok n
  | dangling => exact .error fun holds => nomatch h holds

theorem ty?_grounded (h : fits → e.Resolves scope) : Grounded fits e.ty? :=
  (node?_grounded h).bind fun _ => .ok _

theorem literal?_grounded (h : fits → e.Resolves scope) : Grounded fits e.literal? :=
  (node?_grounded h).bind fun _ => .ok _

end Expr

/-- The operand resolves, and so all its texts are grounded. -/
structure Operand.Grounded (fits : Prop) (scope : Scope) (x : TreeOperand) : Prop where
  expr : fits → (x.expr ()).Resolves scope
  text : ∀ form position, (fits → form.Resolves scope) →
    CppPrinter.Grounded fits (x.text form position)

section Rules

variable {fits : Prop} {scope : Scope} {x left right object : TreeOperand} {args : List TreeOperand}

theorem Operand.Grounded.plain (h : x.Grounded fits scope) (position : Precedence) :
    CppPrinter.Grounded fits (x.plain position) :=
  h.text .plain position fun _ => trivial

theorem Operand.Grounded.coerced (h : x.Grounded fits scope) {target : Ty}
    (resolves : fits → target.Resolves scope) (position : Precedence) :
    CppPrinter.Grounded fits (x.coerced target position) :=
  h.text (.coerced target) position resolves

theorem unaryText_grounded (op : UnaryOp) (h : x.Grounded fits scope) :
    Grounded fits (unaryText op x) := by
  refine (h.plain .primary).bind fun text => ?_
  split <;> exact .ok _

theorem stepText_grounded (op : StepOp) (h : x.Grounded fits scope) :
    Grounded fits (stepText op x) :=
  (h.plain .primary).bind fun _ => .ok _

theorem indexText_grounded (hl : left.Grounded fits scope) (hr : right.Grounded fits scope) :
    Grounded fits (indexText left right) :=
  (hl.plain .primary).bind fun _ => (hr.plain .statement).bind fun _ => .ok _

theorem Node.indexedStore_grounded {ρ : Type} (element : Ty) (n : Node ρ) :
    Grounded fits (n.indexedStore element) := by
  refine (element.intKind?_grounded false).bind fun _ =>
    (n.ty.intKind?_grounded n.isPromoted).bind fun _ => ?_
  split
  · split
    · exact .ok _
    · split <;> exact .ok _
  · exact .ok _

theorem assignedText_grounded (hl : left.Grounded fits scope) (hr : right.Grounded fits scope) :
    Grounded fits (assignedText left right) := by
  refine (Expr.node?_grounded hl.expr).bind_ok fun target looked => ?_
  have resolves : fits → target.ty.Resolves scope := fun holds =>
    ((hl.expr holds).of_node? looked).1.ty
  split
  · refine (Expr.node?_grounded hr.expr).bind fun value =>
      (value.indexedStore_grounded target.ty).bind fun store => ?_
    cases store with
    | plain => exact hr.plain .assign
    | cast => exact hr.text (.cast target.ty) .argument resolves
    | coerce => exact hr.coerced resolves .argument
  · exact hr.coerced resolves .argument

theorem assignText_grounded (position : Precedence) (hl : left.Grounded fits scope)
    (hr : right.Grounded fits scope) : Grounded fits (assignText left right position) :=
  (hl.plain .assign).bind fun _ => (assignedText_grounded hl hr).bind fun _ => .ok _

theorem leftText_grounded (level : Precedence) (symbol : String) (position : Precedence)
    (hl : left.Grounded fits scope) (hr : right.Grounded fits scope) :
    Grounded fits (leftText level symbol left right position) :=
  (hl.plain level).bind fun _ => (hr.plain level.tighter).bind fun _ => .ok _

theorem updateText_grounded (op : ArithOp) (position : Precedence) (hl : left.Grounded fits scope)
    (hr : right.Grounded fits scope) : Grounded fits (updateText op left right position) :=
  (hl.plain .assign).bind fun _ => (hr.plain .argument).bind fun _ => .ok _

theorem comparedChar?_grounded (hl : left.Grounded fits scope) (hr : right.Grounded fits scope) :
    Grounded fits (comparedChar? left right) := by
  refine (Expr.node?_grounded hl.expr).bind_ok fun n looked => ?_
  split
  · rename_i text index shape
    have resolves : fits → (text ()).Resolves scope := fun holds =>
      ((hl.expr holds).of_node? looked).2 text (by simp [shape, Shape.operandsOf])
    refine (Expr.ty?_grounded resolves).bind fun ty => ?_
    split
    · exact (Expr.node?_grounded hr.expr).bind fun _ => .ok _
    · exact .ok _
  · exact .ok _

theorem comparisonText_grounded (level : Precedence) (symbol : String) (position : Precedence)
    (hl : left.Grounded fits scope) (hr : right.Grounded fits scope) :
    Grounded fits (comparisonText level symbol left right position) := by
  refine (comparedChar?_grounded hl hr).bind fun c? => ?_
  cases c? with
  | some c => exact (Grounded.ok _).bind fun _ => (hl.plain level).bind fun _ => .ok _
  | none => exact (hr.plain level.tighter).bind fun _ => (hl.plain level).bind fun _ => .ok _

theorem commonClass?_grounded (resolves : fits → scope.Resolves) {leftTy rightTy : Ty}
    (hl : fits → leftTy.Resolves scope) (hr : fits → rightTy.Resolves scope) :
    Grounded fits (commonClass? scope leftTy rightTy) := by
  refine (scope.accepts_grounded resolves leftTy hr).bind fun b => ?_
  split
  · exact .ok _
  · refine (scope.accepts_grounded resolves rightTy hl).bind fun b => ?_
    split <;> exact .ok _

/-- The class at which two types meet is the one that one of them points to. -/
theorem resolves_of_commonClass? {leftTy rightTy : Ty} {common : ClassId}
    (hl : leftTy.Resolves scope) (hr : rightTy.Resolves scope)
    (found : commonClass? scope leftTy rightTy = .ok (some common)) :
    (Ty.classPtr .readOnly common).Resolves scope := by
  obtain ⟨b, -, rest⟩ := bind_eq_ok_iff.1 found
  split at rest
  · exact hl.pointee (Except.ok.inj rest)
  · obtain ⟨b, -, rest⟩ := bind_eq_ok_iff.1 rest
    split at rest
    · exact hr.pointee (Except.ok.inj rest)
    · cases rest

theorem equalityText_grounded (resolves : fits → scope.Resolves) (symbol : String)
    (position : Precedence) (hl : left.Grounded fits scope) (hr : right.Grounded fits scope) :
    Grounded fits (equalityText scope symbol left right position) := by
  refine (Expr.ty?_grounded hl.expr).bind_ok fun leftTy isLeft =>
    (Expr.ty?_grounded hr.expr).bind_ok fun rightTy isRight => ?_
  have leftResolves : fits → leftTy.Resolves scope := fun holds => (hl.expr holds).of_ty? isLeft
  have rightResolves : fits → rightTy.Resolves scope := fun holds => (hr.expr holds).of_ty? isRight
  refine (commonClass?_grounded resolves leftResolves rightResolves).bind_ok fun common? found => ?_
  cases common? with
  | some common =>
    have meets : fits → (Ty.classPtr .readOnly common).Resolves scope := fun holds =>
      resolves_of_commonClass? (leftResolves holds) (rightResolves holds) found
    exact (hl.coerced meets .equality).bind fun _ => (hr.coerced meets .rel).bind fun _ => .ok _
  | none => exact comparisonText_grounded .equality symbol position hl hr

theorem binaryText_grounded (resolves : fits → scope.Resolves) (op : BinaryOp)
    (position : Precedence) (hl : left.Grounded fits scope) (hr : right.Grounded fits scope) :
    Grounded fits (binaryText scope op left right position) := by
  cases op with
  | arith | and | or => exact leftText_grounded _ _ position hl hr
  | order => exact comparisonText_grounded _ _ position hl hr
  | eq | notEq => exact equalityText_grounded resolves _ position hl hr
  | index => exact indexText_grounded hl hr
  | assign => exact assignText_grounded position hl hr
  | update op => exact updateText_grounded op position hl hr

theorem argumentTexts_grounded {params : List Ty} (resolves : fits → ∀ ty ∈ params, ty.Resolves scope)
    (h : ∀ x ∈ args, x.Grounded fits scope) : Grounded fits (argumentTexts params args) := by
  induction args generalizing params with
  | nil => cases params <;> exact .ok _
  | cons arg args ih =>
    obtain ⟨here, rest⟩ := List.forall_mem_cons.1 h
    cases params with
    | nil =>
      exact (here.plain .argument).bind fun _ => (ih resolves rest).bind fun _ => .ok _
    | cons ty params =>
      have first : fits → ty.Resolves scope := fun holds => (List.forall_mem_cons.1 (resolves holds)).1
      have later : fits → ∀ ty ∈ params, ty.Resolves scope := fun holds =>
        (List.forall_mem_cons.1 (resolves holds)).2
      exact (here.coerced first .argument).bind fun _ => (ih later rest).bind fun _ => .ok _

theorem argumentsText_grounded {params : List Ty}
    (resolves : fits → ∀ ty ∈ params, ty.Resolves scope) (h : ∀ x ∈ args, x.Grounded fits scope) :
    Grounded fits (argumentsText params args) :=
  (argumentTexts_grounded resolves h).bind fun _ => .ok _

theorem Operand.reach?_grounded (h : x.Grounded fits scope) (byName : Bool) :
    CppPrinter.Grounded fits (x.reach? byName) := by
  cases byName with
  | true => exact .ok _
  | false => exact .map _ (Expr.ty?_grounded h.expr)

theorem methodCallText_grounded {method : Signature} (resolves : fits → method.Resolves scope)
    (ho : object.Grounded fits scope) (ha : ∀ x ∈ args, x.Grounded fits scope) :
    Grounded fits (methodCallText method object args) := by
  have params : fits → ∀ ty ∈ method.params.map Param.ty, ty.Resolves scope := fun holds =>
    List.forall_mem_map.2 (resolves holds).params
  rw [methodCallText_eq]
  exact (object.reach?_grounded ho _).bind fun _ => (ho.plain .primary).bind fun _ =>
    (argumentsText_grounded params ha).bind fun _ => .ok _

/-- The library asks for numbers and strings only, which name no class. -/
theorem stringCallText_grounded (name : String) {params : List Ty}
    (resolves : ∀ ty ∈ params, ty.Resolves scope) (ho : object.Grounded fits scope)
    (ha : ∀ x ∈ args, x.Grounded fits scope) :
    Grounded fits (stringCallText name params object args) :=
  (Expr.literal?_grounded ho.expr).bind fun _ => (ho.plain .primary).bind fun _ =>
    (argumentsText_grounded (fun _ => resolves) ha).bind fun _ => .ok _

theorem positionCallText_grounded (name : String) (ho : object.Grounded fits scope)
    (ha : ∀ x ∈ args, x.Grounded fits scope) : Grounded fits (positionCallText name object args) :=
  (stringCallText_grounded name (by simp [Ty.Resolves]) ho ha).bind fun _ => .ok _

theorem offsetPointerText_grounded {array offset : TreeOperand} (ha : array.Grounded fits scope)
    (ho : offset.Grounded fits scope) : Grounded fits (offsetPointerText array offset) := by
  refine (Expr.literal?_grounded ho.expr).bind fun l => ?_
  split
  · exact ha.text .arrayPointer .argument fun _ => trivial
  · exact (ha.text .arrayPointer .add fun _ => trivial).bind fun _ =>
      (ho.coerced (fun _ => Ty.i32_resolves scope) .mul).bind fun _ => .ok _

theorem copyCallText_grounded {source : TreeOperand} (hs : source.Grounded fits scope)
    (ha : ∀ x ∈ args, x.Grounded fits scope) : Grounded fits (copyCallText source args) := by
  unfold copyCallText
  split
  · rename_i sourceOffset target targetOffset count
    simp only [List.forall_mem_cons] at ha
    obtain ⟨hso, ht, hto, hc, -⟩ := ha
    exact (offsetPointerText_grounded hs hso).bind fun _ =>
      (hc.coerced (fun _ => Ty.i32_resolves scope) .argument).bind fun _ =>
        (offsetPointerText_grounded ht hto).bind fun _ => .ok _
  · exact .unsupported _

theorem decodeCallText_grounded (ha : ∀ x ∈ args, x.Grounded fits scope) :
    Grounded fits (decodeCallText args) := by
  unfold decodeCallText
  split
  · simp only [List.forall_mem_cons] at ha
    obtain ⟨hb, ho, hl, -⟩ := ha
    exact (offsetPointerText_grounded hb ho).bind fun _ =>
      (hl.coerced (fun _ => Ty.i32_resolves scope) .argument).bind fun _ => .ok _
  · exact .unsupported _

theorem libraryCallText_grounded (method : LibraryMethod) (position : Precedence)
    (ho : object.Grounded fits scope) (ha : ∀ x ∈ args, x.Grounded fits scope) :
    Grounded fits (libraryCallText method object args position) := by
  cases method with
  | math name =>
    exact (argumentsText_grounded (fun _ => by simp [Ty.Resolves]) ha).bind fun _ => .ok _
  | stringContains =>
    exact (stringCallText_grounded _ (by simp [Ty.Resolves]) ho ha).bind fun _ => .ok _
  | stringIndexOf | stringLastIndexOf => exact positionCallText_grounded _ ho ha
  | stringStartsWith | stringEndsWith | stringSubstring =>
    exact stringCallText_grounded _ (by simp [Ty.Resolves, Ty.i32]) ho ha
  | arrayCopyTo => exact copyCallText_grounded ho ha
  | utf8GetString => exact decodeCallText_grounded ha
  | other name => exact .unsupported _

theorem callText_grounded (resolves : fits → scope.Resolves) {method : MethodRef}
    (exist : fits → method.Resolves scope) (position : Precedence)
    (ho : object.Grounded fits scope) (ha : ∀ x ∈ args, x.Grounded fits scope) :
    Grounded fits (callText scope method object args position) := by
  cases method with
  | user owner index =>
    exact (scope.method_grounded exist).bind_ok fun s found =>
      methodCallText_grounded (fun holds => scope.resolves_of_method (resolves holds) found) ho ha
  | library method => exact libraryCallText_grounded method position ho ha

theorem memberText_grounded (target : Symbol) (ho : object.Grounded fits scope) :
    Grounded fits (memberText object target) := by
  by_cases isLength : target = .stringLength
  · subst isLength
    exact (ho.plain .primary).bind fun _ => .ok _
  · rw [memberText_eq isLength]
    exact target.memberName_grounded.bind fun _ => (ho.plain .primary).bind fun _ =>
      (object.reach?_grounded ho _).bind fun _ => .ok _

theorem selectText_grounded {test positive negative : TreeOperand} {target : Ty}
    (resolves : fits → target.Resolves scope) (position : Precedence)
    (ht : test.Grounded fits scope) (hp : positive.Grounded fits scope)
    (hn : negative.Grounded fits scope) :
    Grounded fits (selectText target test positive negative position) :=
  (ht.plain .condOr).bind fun _ => (hp.coerced resolves .select).bind fun _ =>
    (hn.coerced resolves .select).bind fun _ => .ok _

theorem aggregateText_grounded {ty : Ty} (resolves : fits → ty.Resolves scope)
    (ha : ∀ x ∈ args, x.Grounded fits scope) : Grounded fits (aggregateText ty args) := by
  unfold aggregateText
  split
  · rename_i element holds
    have elements : fits → ∀ ty ∈ args.map fun _ => element, ty.Resolves scope := fun fit =>
      List.forall_mem_map.2 fun _ _ => (resolves fit).element holds
    exact (argumentsText_grounded elements ha).bind fun _ => .ok _
  · exact .unsupported _

end Rules

namespace Node

variable {fits : Prop} {scope : Scope} {n : Node TreeOperand}

theorem castOperand?_grounded (h : ∀ x ∈ n.shape.operandsOf, x.Grounded fits scope)
    (target : Ty) : Grounded fits (n.castOperand? Operand.literal? target) := by
  unfold castOperand?
  split
  · exact .ok none
  · rename_i left right isMask
    have inside : right ∈ n.shape.operandsOf := by
      rw [mask?_eq_some_iff.1 isMask]
      simp [Shape.operandsOf]
    refine (Expr.literal?_grounded (h right inside).expr).bind fun l? => ?_
    cases l? with
    | none => exact .ok none
    | some l => exact .ok _

variable (resolves : fits → scope.Resolves) (hn : fits → n.Resolves scope)
  (h : ∀ x ∈ n.shape.operandsOf, x.Grounded fits scope)

include resolves hn h

theorem plainText_grounded (position : Precedence) :
    Grounded fits (n.plainText scope position) := by
  obtain ⟨shape, ty⟩ := n
  have named : fits → shape.Resolves scope := fun holds => (hn holds).shape
  have typed : fits → ty.Resolves scope := fun holds => (hn holds).ty
  cases shape with
  | literal value => exact value.text_grounded
  | symbol target => exact target.text_grounded named
  | member object target => exact memberText_grounded target (h object (by simp [Shape.operandsOf]))
  | unary op x => exact unaryText_grounded op (h x (by simp [Shape.operandsOf]))
  | step op x => exact stepText_grounded op (h x (by simp [Shape.operandsOf]))
  | binary op left right =>
    exact binaryText_grounded resolves op position (h left (by simp [Shape.operandsOf]))
      (h right (by simp [Shape.operandsOf]))
  | select test positive negative =>
    exact selectText_grounded typed position (h test (by simp [Shape.operandsOf]))
      (h positive (by simp [Shape.operandsOf])) (h negative (by simp [Shape.operandsOf]))
  | call object method args =>
    obtain ⟨ho, ha⟩ := List.forall_mem_cons.1 h
    exact callText_grounded resolves named position ho ha
  | newObject target => exact (scope.className_grounded named).bind fun _ => .ok _
  | newArray element length =>
    exact (element.spelling_grounded named false).bind fun _ =>
      ((h length (by simp [Shape.operandsOf])).plain .argument).bind fun _ => .ok _
  | aggregate items => exact aggregateText_grounded typed h
  | resource name => exact .ok _

theorem arrayPointerText_grounded (position : Precedence) :
    Grounded fits (n.arrayPointerText scope position) := by
  unfold arrayPointerText
  split
  · exact (plainText_grounded resolves hn h .primary).bind fun _ => .ok _
  · exact (plainText_grounded resolves hn h .primary).bind fun _ => .ok _
  · exact plainText_grounded resolves hn h position

theorem castText_grounded {target : Ty} (named : fits → target.Resolves scope) :
    Grounded fits (n.castText scope target) := by
  rw [castText_eq]
  refine (castOperand?_grounded h target).bind_ok fun operand? chosen =>
    (target.spelling_grounded named false).bind fun ty => Grounded.bind ?_ fun _ => .ok _
  cases operand? with
  | none => exact plainText_grounded resolves hn h .argument
  | some operand => exact (h operand (mem_operandsOf_of_castOperand? chosen)).plain .argument

theorem numberText_grounded {target : Ty} (named : fits → target.Resolves scope)
    (position : Precedence) : Grounded fits (n.numberText scope target position) := by
  unfold numberText
  split
  · exact plainText_grounded resolves hn h position
  · exact (plainText_grounded resolves hn h .primary).bind fun _ => .ok _
  · exact castText_grounded resolves hn h named
  · rename_i operand chosen
    exact (h operand (mem_operandsOf_of_numericCoercion chosen)).text _ _ named

theorem valueText_grounded {target : Ty} (named : fits → target.Resolves scope)
    (position : Precedence) : Grounded fits (n.valueText scope target position) := by
  unfold valueText
  split
  · rename_i test positive negative shape
    rw [shape] at h
    exact selectText_grounded named position (h test (by simp [Shape.operandsOf]))
      (h positive (by simp [Shape.operandsOf])) (h negative (by simp [Shape.operandsOf]))
  · exact numberText_grounded resolves hn h named position

theorem coercedText_grounded {target : Ty} (named : fits → target.Resolves scope)
    (position : Precedence) : Grounded fits (n.coercedText scope target position) := by
  unfold coercedText
  split
  · exact valueText_grounded resolves hn h named position
  · exact valueText_grounded resolves hn h named position
  · exact (plainText_grounded resolves hn h .primary).bind fun _ => .ok _
  · exact (plainText_grounded resolves hn h .primary).bind fun _ => .ok _
  · exact arrayPointerText_grounded resolves hn h position
  · exact valueText_grounded resolves hn h named position

theorem text_grounded {form : Form} (named : fits → form.Resolves scope) (position : Precedence) :
    Grounded fits (n.text scope form position) := by
  cases form with
  | plain => exact plainText_grounded resolves hn h position
  | coerced target => exact coercedText_grounded resolves hn h named position
  | cast target => exact castText_grounded resolves hn h named
  | arrayPointer => exact arrayPointerText_grounded resolves hn h position

end Node

/-- All texts of an expression are grounded. -/
theorem Expr.operand_grounded {fits : Prop} {scope : Scope} (resolves : fits → scope.Resolves)
    {e : Expr} (h : fits → e.Resolves scope) :
    (Expr.operand scope fun _ => e).Grounded fits scope := by
  induction e using Expr.induction with
  | dangling => exact ⟨h, fun form position _ => .error fun holds => nomatch h holds⟩
  | node n below =>
    refine ⟨h, fun form position named => ?_⟩
    change Grounded fits ((Expr.node n).text scope form position)
    rw [Expr.text_node]
    refine Node.text_grounded resolves (fun holds => Node.resolves_map _ (h holds).parts.1) ?_ named
      position
    intro x member
    rw [Node.map, Shape.operandsOf_map] at member
    obtain ⟨e, inside, rfl⟩ := List.mem_map.1 member
    exact below e inside fun holds => (h holds).parts.2 e inside

end CppPrinter
