import CppPrinter.Proofs.Reading.Phrase
import CppPrinter.Proofs.Result
import CppPrinter.Proofs.Expr.Unfold

/-!
# What the position of an expression decides

Every rule of printing is handed the position that its text is for, and hands positions of its own to
the operands. So the texts of one expression for all positions are one text, and the position decides
on parentheses around the whole alone (`StandsAt`): they stand wherever it asks for more than the
level of the topmost operator (`Shape.level`), and nowhere else. A form that ends in brackets or in a
call needs none at all. There is one law for each rule of printing, and that for expressions in
an arena comes last (`position_decides_parentheses`).
-/

namespace CppPrinter

/-- The texts for all positions are one text, in parentheses wherever the position asks for a level
tighter than `q`. An error is the same for all positions. -/
def StandsAt (q : Precedence) (text : Precedence → Rendered String) : Prop :=
  ∀ p, text p = (do return q.parenthesize p (← text .statement))

/-- The tightest level fits everywhere. -/
theorem Precedence.parenthesize_primary (p : Precedence) (text : String) :
    primary.parenthesize p text = text :=
  parenthesize_of_le (by cases p <;> decide) text

namespace StandsAt

variable {α : Type} {q : Precedence}

theorem congr {text text' : Precedence → Rendered String} (h : StandsAt q text')
    (same : ∀ p, text p = text' p) : StandsAt q text := by
  rwa [funext same]

/-- What does not depend on the position fits everywhere. -/
theorem fixed (r : Rendered String) : StandsAt .primary fun _ => r := by
  intro p
  simp only [Precedence.parenthesize_primary, pure_eq_ok]
  cases r <;> rfl

/-- An operator at a level is made fit for its position. -/
theorem parenthesize (q : Precedence) (text : String) :
    StandsAt q fun p => return q.parenthesize p text := by
  intro p
  simp only [Precedence.parenthesize_statement, pure_eq_ok, ok_bind]

/-- What comes first knows nothing of the position. -/
theorem bind {x : Rendered α} {f : α → Precedence → Rendered String} (h : ∀ a, StandsAt q (f a)) :
    StandsAt q fun p => x >>= (f · p) := by
  intro p
  cases x with
  | ok a => exact h a p
  | error e => rfl

/-- The position decides neither on an error nor on the text, but on parentheses around it. -/
theorem decides {text : Precedence → Rendered String} (h : StandsAt q text) (p : Precedence) :
    (∀ e, text p = .error e ↔ text .statement = .error e) ∧
      ∀ bare, text .statement = .ok bare →
        text p = .ok (if p.level ≤ q.level then bare else "(" ++ bare ++ ")") := by
  rw [h p]
  constructor
  · intro e
    cases text .statement <;> simp
  · intro bare printed
    rw [printed, ok_bind, pure_eq_ok, Precedence.parenthesize]
    by_cases fits : p.level ≤ q.level
    · rw [if_pos fits, if_neg (by rw [Precedence.needsParens_iff]; omega)]
    · rw [if_neg fits, if_pos (by rw [Precedence.needsParens_iff]; omega)]

end StandsAt

/-! ### The rules of printing -/

/-- The level of the operator that a call is printed as: a search is compared with the position that
no string has, and every other call is an operand. -/
def MethodRef.level : MethodRef → Precedence
  | library .stringContains => .equality
  | _ => .primary

/-- The level of the topmost operator. -/
def Shape.level {ρ : Type} : Shape ρ → Precedence
  | binary op _ _ => op.level
  | select .. => .select
  | call _ method _ => method.level
  | _ => .primary

section Rules

variable {scope : Scope} {x y z : TreeOperand}

theorem leftText_standsAt (q : Precedence) (symbol : String) :
    StandsAt q (leftText q symbol x y) :=
  .bind fun _ => .bind fun _ => .parenthesize q _

theorem comparisonText_standsAt (q : Precedence) (symbol : String) :
    StandsAt q (comparisonText q symbol x y) := by
  refine .bind fun char? => ?_
  cases char? <;> exact .bind fun _ => .bind fun _ => .parenthesize q _

theorem equalityText_standsAt (symbol : String) :
    StandsAt .equality (equalityText scope symbol x y) := by
  refine .bind fun leftTy => .bind fun rightTy => .bind fun common? => ?_
  cases common? with
  | none => exact comparisonText_standsAt .equality symbol
  | some common => exact .bind fun _ => .bind fun _ => .parenthesize .equality _

theorem binaryText_standsAt (op : BinaryOp) : StandsAt op.level (binaryText scope op x y) := by
  cases op with
  | arith op => exact leftText_standsAt op.precedence op.symbol
  | and => exact leftText_standsAt .condAnd "&&"
  | or => exact leftText_standsAt .condOr "||"
  | order op => exact comparisonText_standsAt .rel op.symbol
  | eq => exact equalityText_standsAt "=="
  | notEq => exact equalityText_standsAt "!="
  | index => exact .fixed _
  | assign => exact .bind fun _ => .bind fun _ => .parenthesize .assign _
  | update op => exact .bind fun _ => .bind fun _ => .parenthesize .assign _

theorem selectText_standsAt (target : Ty) : StandsAt .select (selectText target x y z) :=
  .bind fun _ => .bind fun _ => .bind fun _ => .parenthesize .select _

theorem callText_standsAt (method : MethodRef) (object : TreeOperand) (args : List TreeOperand) :
    StandsAt method.level (callText scope method object args) := by
  cases method with
  | user owner index => exact .fixed _
  | library method =>
    cases method with
    | stringContains => exact .bind fun _ => .parenthesize .equality _
    | _ => exact .fixed _

end Rules

/-! ### The forms of a node -/

namespace Node

variable {scope : Scope} (n : Node TreeOperand)

theorem plainText_standsAt : StandsAt n.shape.level (n.plainText scope) := by
  obtain ⟨shape, ty⟩ := n
  cases shape with
  | binary op left right => exact binaryText_standsAt op
  | select test positive negative => exact selectText_standsAt ty
  | call object method args => exact callText_standsAt method object args
  | _ => exact .fixed _

/-- The texts of a form stand at the level of the topmost operator, or they need no parentheses
anywhere. -/
def IsAtLevel (text : Precedence → Rendered String) : Prop :=
  ∃ q, (q = n.shape.level ∨ q = .primary) ∧ StandsAt q text

theorem plainText_isAtLevel : n.IsAtLevel (n.plainText scope) :=
  ⟨_, .inl rfl, n.plainText_standsAt⟩

theorem fixed_isAtLevel (r : Rendered String) : n.IsAtLevel fun _ => r :=
  ⟨_, .inr rfl, .fixed r⟩

theorem arrayPointerText_isAtLevel : n.IsAtLevel (n.arrayPointerText scope) := by
  unfold arrayPointerText
  split
  · exact n.fixed_isAtLevel _
  · exact n.fixed_isAtLevel _
  · exact n.plainText_isAtLevel

theorem numberText_isAtLevel (target : Ty) : n.IsAtLevel (n.numberText scope target) := by
  unfold numberText
  split
  · exact n.plainText_isAtLevel
  · exact n.fixed_isAtLevel _
  · exact n.fixed_isAtLevel _
  · exact n.fixed_isAtLevel _

theorem valueText_isAtLevel (target : Ty) : n.IsAtLevel (n.valueText scope target) := by
  obtain ⟨shape, ty⟩ := n
  cases shape with
  | select test positive negative => exact ⟨.select, .inl rfl, selectText_standsAt target⟩
  | _ => exact numberText_isAtLevel _ target

theorem coercedText_isAtLevel (target : Ty) : n.IsAtLevel (n.coercedText scope target) := by
  unfold coercedText
  split
  · exact n.valueText_isAtLevel _
  · exact n.valueText_isAtLevel _
  · exact n.fixed_isAtLevel _
  · exact n.fixed_isAtLevel _
  · exact n.arrayPointerText_isAtLevel
  · exact n.valueText_isAtLevel _

theorem text_isAtLevel (form : Form) : n.IsAtLevel (n.text scope form) := by
  cases form with
  | plain => exact n.plainText_isAtLevel
  | coerced target => exact n.coercedText_isAtLevel target
  | cast target => exact n.fixed_isAtLevel _
  | arrayPointer => exact n.arrayPointerText_isAtLevel

end Node

/-! ### Expressions -/

/-- The level of the topmost operator. -/
def Expr.level : Expr → Precedence
  | .dangling => .primary
  | .node n => n.shape.level

theorem Shape.level_map {α β : Type} (f : α → β) (s : Shape α) : (s.map f).level = s.level := by
  cases s <;> rfl

theorem Expr.text_plain_standsAt (scope : Scope) (e : Expr) :
    StandsAt e.level (e.text scope .plain) := by
  cases e with
  | dangling => exact .fixed _
  | node n =>
    rw [Expr.text_node, Expr.level, ← Shape.level_map (Expr.operand scope)]
    exact (n.map (Expr.operand scope)).plainText_standsAt

theorem Expr.exists_text_standsAt (scope : Scope) (e : Expr) (form : Form) :
    ∃ q, (q = e.level ∨ q = .primary) ∧ StandsAt q (e.text scope form) := by
  cases e with
  | dangling => exact ⟨.primary, .inr rfl, .fixed _⟩
  | node n =>
    rw [Expr.text_node, Expr.level, ← Shape.level_map (Expr.operand scope)]
    exact (n.map (Expr.operand scope)).text_isAtLevel form

/-- Every expression of a program has a threshold in every form, as it stands or converted to a type:
for each position, printing it ends in an error exactly when it does for a whole statement, in the
same one, and the text is that for a whole statement, in one pair of parentheses just when the
position asks for more than the threshold. For an expression as it stands the threshold is the level
of its topmost operator, and there is no other but the tightest level. -/
theorem position_decides_parentheses (p : Program) (id : ExprId) (form : Form) :
    ∃ threshold : Precedence,
      (threshold = (p.exprs.tree id).level ∨ threshold = .primary) ∧
      (form = .plain → threshold = (p.exprs.tree id).level) ∧
      ∀ position : Precedence,
        (∀ e, p.exprs.text p.scope id form position = .error e ↔
          p.exprs.text p.scope id form .statement = .error e) ∧
        ∀ text, p.exprs.text p.scope id form .statement = .ok text →
          p.exprs.text p.scope id form position =
            .ok (if position.level ≤ threshold.level then text else "(" ++ text ++ ")") := by
  rw [Arena.text_eq]
  by_cases plain : form = .plain
  · subst plain
    exact ⟨_, .inl rfl, fun _ => rfl, (Expr.text_plain_standsAt p.scope _).decides⟩
  · obtain ⟨threshold, known, stands⟩ := Expr.exists_text_standsAt p.scope (p.exprs.tree id) form
    exact ⟨threshold, known, fun same => absurd same plain, stands.decides⟩

end CppPrinter
