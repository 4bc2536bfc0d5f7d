import CppPrinter.Proofs.Class.Inheritance
import CppPrinter.Proofs.Expr.Induction
import CppPrinter.Proofs.Expr.Position
import CppPrinter.Proofs.Reference.Basic

/-!
# Operands of a comparison as raw pointers

What an operand becomes in a comparison of class pointers depends on its own type alone
(`Ty.rawForm`): a shared pointer gives its raw pointer, an object its address, and a conditional of
any other type hands the question on to its branches (`Expr.rawText`). Neither the class at which the
two sides meet nor the other operand matters (`Expr.text_coerced_eq_rawText`), and the position only
decides on parentheses around the whole (`Expr.rawText_wraps`). So both operands of an equality are
printed so as soon as the type of one accepts that of the other (`equality_text_eq_raw`).
-/

namespace CppPrinter

open Relation

/-! ### Which operands meet -/

/-- A class pointer takes null, and a pointer to or a value of its class or one that inherits from
it. -/
def Scope.Accepts (scope : Scope) (target other : Ty) : Prop :=
  ∃ ownership base, target = .classPtr ownership base ∧ (other = .null ∨
    ∃ derived, ((∃ held, other = .classPtr held derived) ∨ other = .classValue derived) ∧
      ReflTransGen scope.Extends derived base)

section Meeting

variable {scope : Scope} (inside : scope.ParentsExist) {left right : Ty}

include inside

/-- The test of assignability comes to an answer where the classes exist, and the answer is right. -/
theorem Scope.accepts_eq_decide (target : Ty) {other : Ty} (resolves : other.Resolves scope) :
    ∃ answer, scope.accepts target other = .ok answer ∧
      (answer = true ↔ scope.Accepts target other) := by
  have inherits (base derived : ClassId) (present : derived.index < scope.classes.size) :
      ∃ answer, scope.isSameOrDerived derived base = .ok answer ∧
        (answer = true ↔ ReflTransGen scope.Extends derived base) :=
    derivesWithin_eq_decide inside base (Nat.le_succ _) present
  cases target with
  | classPtr ownership base =>
    cases other with
    | null => exact ⟨true, rfl, by simp [Accepts]⟩
    | classPtr held derived =>
      obtain ⟨answer, comesTo, iff⟩ := inherits base derived resolves
      exact ⟨answer, comesTo, by simp [Accepts, iff]⟩
    | classValue derived =>
      obtain ⟨answer, comesTo, iff⟩ := inherits base derived resolves
      exact ⟨answer, comesTo, by simp [Accepts, iff]⟩
    | _ => exact ⟨false, rfl, by simp [Accepts]⟩
  | _ => exact ⟨false, by simp [accepts], by simp [Accepts]⟩

/-- Where one type accepts the other, the two meet at a class. -/
theorem exists_commonClass (resolves : left.Resolves scope) (resolves' : right.Resolves scope)
    (meets : scope.Accepts left right ∨ scope.Accepts right left) :
    ∃ common, commonClass? scope left right = .ok (some common) := by
  obtain ⟨answer, comesTo, iff⟩ := scope.accepts_eq_decide inside left resolves'
  rw [commonClass?, comesTo, ok_bind]
  cases answer with
  | true =>
    obtain ⟨ownership, base, rfl, -⟩ := iff.1 rfl
    exact ⟨base, rfl⟩
  | false =>
    have behind : scope.Accepts right left := by
      apply meets.resolve_left
      intro accepts
      cases iff.2 accepts
    obtain ⟨answer', comesTo', iff'⟩ := scope.accepts_eq_decide inside right resolves
    rw [iff'.2 behind] at comesTo'
    obtain ⟨ownership, base, rfl, -⟩ := behind
    refine ⟨base, ?_⟩
    rw [if_neg Bool.false_ne_true, comesTo']
    rfl

end Meeting

/-! ### What they become -/

/-- How an operand becomes a raw pointer. -/
inductive RawForm where
  /-- By the raw pointer of a shared one. -/
  | get
  /-- By the address of an object. -/
  | address
  /-- As it stands. -/
  | plain
  deriving DecidableEq

def Ty.rawForm : Ty → RawForm
  | classPtr .shared _ => .get
  | classValue _ => .address
  | _ => .plain

/-- The text of an operand as a raw pointer. The branches of a conditional become raw pointers one by
one, unless the type of the conditional says what becomes of it as a whole. -/
def Expr.rawText (scope : Scope) : Expr → Precedence → Rendered String
  | .dangling, _ => .error .dangling
  | .node ⟨shape, ty⟩, position =>
    let whole := (Expr.node ⟨shape, ty⟩).text scope .plain
    match ty.rawForm with
    | .get => do return (← whole .primary) ++ ".get()"
    | .address => do return "&" ++ (← whole .primary)
    | .plain =>
      match shape with
      | .select test positive negative => do
        let c ← (test ()).text scope .plain .condOr
        let t ← (positive ()).rawText scope .select
        let e ← (negative ()).rawText scope .select
        return Precedence.select.parenthesize position (c ++ " ? " ++ t ++ " : " ++ e)
      | _ => whole position

section Conversion

variable {scope : Scope} {n : Node (Unit → Expr)} {position : Precedence}

theorem Expr.rawText_get (form : n.ty.rawForm = .get) :
    (Expr.node n).rawText scope position =
      (do return (← (Expr.node n).text scope .plain .primary) ++ ".get()") := by
  obtain ⟨shape, ty⟩ := n
  unfold rawText
  simp only [form]

theorem Expr.rawText_address (form : n.ty.rawForm = .address) :
    (Expr.node n).rawText scope position =
      (do return "&" ++ (← (Expr.node n).text scope .plain .primary)) := by
  obtain ⟨shape, ty⟩ := n
  unfold rawText
  simp only [form]

theorem Expr.rawText_plain (form : n.ty.rawForm = .plain)
    (noSelect : ∀ test positive negative, n.shape ≠ .select test positive negative) :
    (Expr.node n).rawText scope position = (Expr.node n).text scope .plain position := by
  obtain ⟨shape, ty⟩ := n
  cases shape with
  | select test positive negative => exact absurd rfl (noSelect test positive negative)
  | _ => simp only [rawText, form]

theorem Expr.rawText_select {test positive negative : Unit → Expr} {ty : Ty}
    (form : ty.rawForm = .plain) :
    (Expr.node ⟨.select test positive negative, ty⟩).rawText scope position = (do
      let c ← (test ()).text scope .plain .condOr
      let t ← (positive ()).rawText scope .select
      let e ← (negative ()).rawText scope .select
      return Precedence.select.parenthesize position (c ++ " ? " ++ t ++ " : " ++ e)) := by
  simp only [rawText, form]

/-- The conversion to a borrowed pointer, whatever its class. -/
theorem Expr.text_coerced_eq_rawText (e : Expr) (c : ClassId) (position : Precedence) :
    e.text scope (.coerced (.classPtr .readOnly c)) position = e.rawText scope position := by
  induction e using Expr.induction generalizing position with
  | dangling => rfl
  | node n ih =>
    have plain (p : Precedence) : (Expr.node n).text scope .plain p =
        (n.map (Expr.operand scope)).plainText scope p := by rw [Expr.text_node]; rfl
    have value : n.ty.rawForm = .plain → (n.map (Expr.operand scope)).valueText scope
        (.classPtr .readOnly c) position = (Expr.node n).rawText scope position := by
      intro form
      obtain ⟨shape, ty⟩ := n
      cases shape with
      | select test positive negative =>
        have first := ih positive (by simp [Shape.operandsOf]) .select
        have second := ih negative (by simp [Shape.operandsOf]) .select
        rw [rawText_select form, ← first, ← second]
        rfl
      | _ =>
        rw [rawText_plain form (by simp), plain]
        rfl
    rw [Expr.text_node]
    show (n.map (Expr.operand scope)).coercedText scope (.classPtr .readOnly c) position = _
    obtain ⟨shape, ty⟩ := n
    cases ty with
    | classPtr ownership pointee =>
      cases ownership with
      | shared =>
        rw [rawText_get rfl, plain]
        rfl
      | _ => exact value rfl
    | classValue stored =>
      rw [rawText_address rfl, plain]
      rfl
    | _ => exact value rfl

end Conversion

/-! ### What the position decides -/

/-- The results are the same, but for parentheses around the first text. -/
def Wraps (x y : Rendered String) : Prop := x = y ∨ x = (do return "(" ++ (← y) ++ ")")

/-- Where the position decides on parentheses around the whole alone, there is a pair of them or none. -/
theorem StandsAt.wraps {q : Precedence} {text : Precedence → Rendered String} (h : StandsAt q text)
    (p : Precedence) : Wraps (text p) (text .statement) := by
  rw [h p, Wraps]
  unfold Precedence.parenthesize
  split
  · exact .inr rfl
  · cases text .statement <;> exact .inl rfl

section Position

variable {scope : Scope} (p : Precedence)

/-- The text of an expression as it stands, for any position. -/
theorem Expr.text_wraps (e : Expr) :
    Wraps (e.text scope .plain p) (e.text scope .plain .statement) :=
  (e.text_plain_standsAt scope).wraps p

theorem Expr.exists_rawText_standsAt (scope : Scope) (e : Expr) :
    ∃ q, StandsAt q (e.rawText scope) := by
  cases e with
  | dangling => exact ⟨_, .fixed _⟩
  | node n =>
    cases form : n.ty.rawForm with
    | get => exact ⟨_, (StandsAt.fixed _).congr fun _ => rawText_get form⟩
    | address => exact ⟨_, (StandsAt.fixed _).congr fun _ => rawText_address form⟩
    | plain =>
      obtain ⟨shape, ty⟩ := n
      cases shape with
      | select test positive negative =>
        refine ⟨.select, .congr ?_ fun _ => rawText_select form⟩
        exact .bind fun _ => .bind fun _ => .bind fun _ => .parenthesize .select _
      | _ => exact ⟨_, (text_plain_standsAt scope _).congr fun _ => rawText_plain form (by simp)⟩

/-- The text of an operand as a raw pointer, for any position. -/
theorem Expr.rawText_wraps (e : Expr) :
    Wraps (e.rawText scope p) (e.rawText scope .statement) := by
  obtain ⟨q, stands⟩ := e.exists_rawText_standsAt scope
  exact stands.wraps p

end Position

/-- An equality or its negation. -/
def BinaryOp.isEquality : BinaryOp → Bool
  | eq | notEq => true
  | _ => false

/-- The text of an equality with both operands as raw pointers. -/
def rawEqualityText (scope : Scope) (op : BinaryOp) (left right : Expr) (position : Precedence) :
    Rendered String := do
  let l ← left.rawText scope .equality
  let r ← right.rawText scope .rel
  return Precedence.equality.parenthesize position (between l op.symbol r)

/-- Where the type of one operand accepts that of the other, an equality is printed from both
operands as raw pointers. -/
theorem equality_text_eq_raw {scope : Scope} (inside : scope.ParentsExist) {op : BinaryOp}
    (isEquality : op.isEquality = true) {left right : Unit → Expr} {leftTy rightTy ty : Ty}
    (typed : (left ()).ty? = .ok leftTy) (typed' : (right ()).ty? = .ok rightTy)
    (resolves : leftTy.Resolves scope) (resolves' : rightTy.Resolves scope)
    (meets : scope.Accepts leftTy rightTy ∨ scope.Accepts rightTy leftTy) (p : Precedence) :
    (Expr.node ⟨.binary op left right, ty⟩).text scope .plain p =
      rawEqualityText scope op (left ()) (right ()) p := by
  obtain ⟨common, found⟩ := exists_commonClass inside resolves resolves' meets
  have equal (symbol : String) : equalityText scope symbol (Expr.operand scope left)
      (Expr.operand scope right) p = (do
        let l ← (left ()).rawText scope .equality
        let r ← (right ()).rawText scope .rel
        return Precedence.equality.parenthesize p (between l symbol r)) := by
    have looked : (Expr.operand scope left).ty? = .ok leftTy := typed
    have looked' : (Expr.operand scope right).ty? = .ok rightTy := typed'
    rw [equalityText, looked, looked', ok_bind, ok_bind, found, ok_bind,
      ← Expr.text_coerced_eq_rawText _ common, ← Expr.text_coerced_eq_rawText _ common]
    rfl
  rw [Expr.text_node]
  cases op with
  | eq => exact equal "=="
  | notEq => exact equal "!="
  | _ => cases isEquality

end CppPrinter
