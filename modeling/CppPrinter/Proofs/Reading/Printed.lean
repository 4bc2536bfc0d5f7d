import CppPrinter.Proofs.Expr.Induction
import CppPrinter.Proofs.Reading.Callee

/-!
# Every printed expression is read

The text of any expression, in any form and for any position, is an operand of that position
(`Expr.isRead`), provided that everything in it has a name of the printed language (`Node.Named`)
and that nothing is taken out of a number (`Node.IsApart`). No rule of printing depends on how deep
the expression is; so the result is an induction over one node after the other.
-/

namespace CppPrinter

/-- What the node refers to by name has a name of the printed language. -/
def Node.Named {ρ : Type} (n : Node ρ) : Prop :=
  match n.shape with
  | .symbol target | .member _ target => target.Named
  | .call _ method _ => method.Named
  | .resource name => IsMemberName (sanitizeIdentifier name)
  | _ => True

/-- Whatever a member or a method is taken out of is no number. -/
def Node.ReachesApart (n : Node (Unit → Expr)) : Prop :=
  match n.shape with
  | .member object _ => (object ()).endsNumber = false
  | .call object method _ => method.asksObject = true → (object ()).endsNumber = false
  | _ => True

/-- Nothing is taken out of a number: it has no members, and it is neither an array nor a pointer. -/
structure Node.IsApart (n : Node (Unit → Expr)) : Prop where
  reaches : n.ReachesApart
  noPointer : (Expr.node n).endsNumber = true → n.ty.isArray = false ∧ n.ty.isClassPtr = false

/-- An array or a pointer does not end in a number. -/
theorem Node.IsApart.noNumber {n : Node (Unit → Expr)} (apart : n.IsApart)
    (holds : n.ty.isArray = true ∨ n.ty.isClassPtr = true) : (Expr.node n).endsNumber = false := by
  by_contra number
  rw [Bool.not_eq_false] at number
  obtain ⟨noArray, noClass⟩ := apart.noPointer number
  rw [noArray, noClass] at holds
  exact holds.elim nofun nofun

section Rules

variable {scope : Scope} {x y : TreeOperand} {items : List TreeOperand} {p : Precedence} {text : String}

theorem binaryText_isPrinted {op : BinaryOp} (h : x.IsRead) (h' : y.IsRead)
    (printed : binaryText scope op x y p = .ok text) :
    IsPrinted (op == .index && (x.expr ()).leads) false op.isAssign p text := by
  cases op with
  | arith op =>
    have atLevel : (op.symbol, op.precedence) ∈ infixOps := by cases op <;> decide
    have spaced : Spells (" " ++ op.symbol) [.mark op.symbol] := by cases op <;> decide
    have low : Precedence.condOr.level ≤ op.precedence.level := by cases op <;> decide
    have high : op.precedence ≠ .primary := by cases op <;> decide
    exact leftText_isPrinted atLevel spaced low high h h' printed
  | and =>
    exact leftText_isPrinted (by decide) (by decide) (by decide) (by decide) h h' printed
  | or =>
    exact leftText_isPrinted (by decide) (by decide) (by decide) (by decide) h h' printed
  | order op =>
    have atLevel : (op.symbol, .rel) ∈ infixOps := by cases op <;> decide
    have spaced : Spells (" " ++ op.symbol) [.mark op.symbol] := by cases op <;> decide
    exact comparisonText_isPrinted atLevel spaced (by decide) (by decide) h h' printed
  | eq => exact equalityText_isPrinted (by decide) (by decide) h h' printed
  | notEq => exact equalityText_isPrinted (by decide) (by decide) h h' printed
  | index => exact .operand (indexText_isOperand h h' printed)
  | assign => exact assignText_isPrinted h h' printed
  | update op => exact updateText_isPrinted h h' printed

/-- A call of the function that makes an object, for a type and what it adds to it. -/
theorem isOperand_makeShared {ty closing inner : String} {ts vs is : List Token} {i : Tree}
    (h : IsTypeText ty ts) (closed : Spells closing (vs ++ [Token.mark ">", .mark "("]))
    (joins : Joins ty closing) (free : (tailOf closing).isFree = true) (some : closing ≠ "")
    (closes : closesType 0 vs = true) (spells : Spells inner is) (derives : Derives .items is i) :
    IsOperand false false ("std::make_shared<" ++ ty ++ closing ++ inner ++ ")") := by
  have opened : Spells "std::make_shared<"
      [.word "std", .mark "::", .word "make_shared", .mark "<"] := by decide
  have tail : tailOf "std::make_shared<" = .mark ['<'] := by decide
  have joins' : Joins ("std::make_shared<" ++ ty) closing := by
    intro c first
    rw [(h.joins tail).tailOf_append h.ne_empty]
    exact joins c first
  have isType : closesType 0 (ts ++ vs) = true := by
    have behind := closesType_append h.closes 0 vs
    rw [Nat.add_zero] at behind
    rw [behind]
    exact closes
  have front := (opened.append h.spells (h.joins tail)).append closed joins'
  have free' : (tailOf ("std::make_shared<" ++ ty ++ closing)).isFree = true := by
    rw [joins'.tailOf_append some]
    exact free
  have opens : Opens "std::make_shared<" := by decide
  have call := Derives.call (.template isType) derives
  have derivesCall : Derives .tight
      ([Token.word "std", .mark "::", .word "make_shared", .mark "<"] ++ ts ++
        (vs ++ [Token.mark ">", .mark "("]) ++ is ++ [Token.mark ")"])
      (.call (.template templatePath (ts ++ vs)) i) := by simpa using call
  exact ⟨_, _, .enclosed front free' ((opens.append ty).append closing) spells derivesCall⟩

theorem newObject_isOperand (scopeNamed : scope.Named) {target : ClassId} {name : String}
    (found : scope.className target = .ok name) :
    IsOperand false false ("std::make_shared<" ++ name ++ ">()") := by
  have identifier := scopeNamed.className found
  have closed : Spells ">(" ([] ++ [Token.mark ">", .mark "("]) := by decide
  have empty : Spells "" [] := by decide
  have whole := isOperand_makeShared (.name identifier) closed
    ((Phrase.name identifier).joins_joint rfl (by decide)) (by decide) (by decide) rfl empty .noItem
  have shape : ">()" = ">(" ++ ("" ++ ")") := by decide
  rw [shape]
  simpa only [String.append_assoc] using whole

theorem newArray_isOperand (scopeNamed : scope.Named) {element : Ty} {ty length : String}
    (spelled : element.spelling scope false = .ok ty) (h : IsPhraseAt .argument length) :
    IsOperand false false ("std::make_shared<" ++ ty ++ "[]>(" ++ length ++ ")") := by
  obtain ⟨ts, isType⟩ := Ty.isTypeText scopeNamed spelled
  obtain ⟨is, i, phrase, derives⟩ := h
  have closed : Spells "[]>(" ([Token.mark "[", .mark "]"] ++ [Token.mark ">", .mark "("]) := by decide
  exact isOperand_makeShared isType closed (.of_splits isType.spells (by decide)) (by decide)
    (by decide) rfl phrase.spells (.firstItem derives)

theorem aggregateText_isOperand {ty : Ty} (h : ∀ x ∈ items, x.IsRead)
    (printed : aggregateText ty items = .ok text) : IsOperand false false text := by
  unfold aggregateText at printed
  split at printed
  · rename_i element _
    obtain ⟨inner, printedInner, rfl⟩ : ∃ inner,
        argumentsText (items.map fun _ => element) items = .ok inner ∧
          "\x7b " ++ inner ++ " \x7d" = text := by simpa using printed
    obtain ⟨ts, t, spells, derives⟩ := argumentsText_isRead h printedInner
    have opened : Spells "\x7b " [.mark "\x7b"] := by decide
    have closed : Spells " \x7d" [.mark "\x7d"] := by decide
    have phrase : Phrase ("\x7b " ++ inner ++ " \x7d") ([Token.mark "\x7b"] ++ ts ++ [Token.mark "\x7d"]) :=
      .enclosed opened (by decide) (by decide) spells closed (by decide) (by decide)
    refine .ofTight phrase (.braces derives) ?_
    rintro ⟨digits, last⟩
    simp [List.getLast?_cons] at last
  · simp at printed

end Rules

namespace Node

variable {ρ : Type} {n : Node ρ} {target : Ty}

/-- Casts are written to integers and to single-precision numbers. -/
theorem target_of_castSelf (chosen : n.numericCoercion target = .castSelf) :
    target = .float ∨ ∃ int, target = .integer int := by
  have source := n.numericCoercion_comesFrom target
  rw [chosen] at source
  cases source with
  | castWide narrow => exact .inr ⟨_, narrow⟩
  | castDouble single => exact .inl single
  | castFraction integer => exact .inr ⟨_, integer⟩

/-- Only integers are made of what a call drops the fraction of. -/
theorem target_of_castOperand {operand : ρ}
    (chosen : n.numericCoercion target = .castOperand operand) : ∃ int, target = .integer int := by
  have source := n.numericCoercion_comesFrom target
  rw [chosen] at source
  cases source with
  | castOperand integer => exact ⟨_, integer⟩

end Node

/-- The operands of a node are read. -/
def Node.OperandsAreRead (scope : Scope) (n : Node (Unit → Expr)) : Prop :=
  ∀ e ∈ n.shape.operandsOf, (Expr.operand scope e).IsRead

section Forms

variable {scope : Scope} {n : Node (Unit → Expr)} {p : Precedence} {text : String}
  (scopeNamed : scope.Named) (named : n.Named) (apart : n.IsApart) (h : n.OperandsAreRead scope)

include scopeNamed named apart h

/-- The text of a node as it stands. -/
theorem plainText_isPrinted
    (printed : (n.map (Expr.operand scope)).plainText scope p = .ok text) :
    IsPrinted (Expr.node n).leads (Expr.node n).endsNumber (Expr.node n).isLoose p text := by
  obtain ⟨shape, ty⟩ := n
  cases shape with
  | literal value => exact .operand (Literal.isOperand printed)
  | symbol target => exact .operand (Symbol.isOperand scopeNamed named printed)
  | member object target =>
    exact .operand (memberText_isOperand named (h object (by simp [Shape.operandsOf]))
      apart.reaches printed)
  | unary op operand =>
    exact .operand (unaryText_isOperand (h operand (by simp [Shape.operandsOf])) printed)
  | step op operand =>
    exact .operand (stepText_isOperand (h operand (by simp [Shape.operandsOf])) printed)
  | binary op left right =>
    have whole := binaryText_isPrinted (h left (by simp [Shape.operandsOf]))
      (h right (by simp [Shape.operandsOf])) printed
    cases op <;> exact whole
  | select test positive negative =>
    exact selectText_isPrinted (h test (by simp [Shape.operandsOf]))
      (h positive (by simp [Shape.operandsOf])) (h negative (by simp [Shape.operandsOf])) printed
  | call object method args =>
    have readArgs : ∀ x ∈ args.map (Expr.operand scope), x.IsRead := by
      intro x member
      obtain ⟨e, listed, rfl⟩ := List.mem_map.1 member
      exact h e (List.mem_cons_of_mem object listed)
    exact callText_isPrinted scopeNamed named (h object (by simp [Shape.operandsOf]))
      apart.reaches readArgs printed
  | newObject target =>
    obtain ⟨name, found, rfl⟩ : ∃ name, scope.className target = .ok name ∧
        "std::make_shared<" ++ name ++ ">()" = text := by
      simpa [Node.map, Shape.map, Node.plainText] using printed
    exact .operand (newObject_isOperand scopeNamed found)
  | newArray element length =>
    obtain ⟨ty, spelled, size, printedSize, rfl⟩ : ∃ ty, element.spelling scope false = .ok ty ∧
        ∃ size, (Expr.operand scope length).plain .argument = .ok size ∧
          "std::make_shared<" ++ ty ++ "[]>(" ++ size ++ ")" = text := by
      simpa [Node.map, Shape.map, Node.plainText] using printed
    exact .operand (newArray_isOperand scopeNamed spelled
      ((h length (by simp [Shape.operandsOf])).phrase printedSize))
  | aggregate items =>
    have readItems : ∀ x ∈ items.map (Expr.operand scope), x.IsRead := by
      intro x member
      obtain ⟨e, listed, rfl⟩ := List.mem_map.1 member
      exact h e listed
    exact .operand (aggregateText_isOperand readItems printed)
  | resource name =>
    cases printed
    exact .operand (resourceReference_isOperand named)

/-- The text of a node that takes something out of what it holds. -/
theorem plainText_take {name : String} (identifier : IsIdentifier name)
    (holds : n.ty.isArray = true ∨ n.ty.isClassPtr = true)
    (printed : (n.map (Expr.operand scope)).plainText scope .primary = .ok text) (p : Precedence) :
    IsPhraseAt p (text ++ ("." ++ name ++ "()")) := by
  have isMember : "." ∈ memberOps := by decide
  have empty : Spells "" [] := by decide
  have operand := (plainText_isPrinted scopeNamed named apart h printed).isOperand
  have whole := operand.behind ((Trail.member isMember identifier).append (.call empty .noItem))
    fun _ => apart.noNumber holds
  have parens : "(" ++ ("" ++ ")") = "()" := by decide
  rw [parens] at whole
  exact whole.isPhraseAt p

/-- The text of a node as a pointer to its first element. -/
theorem arrayPointerText_isPhraseAt
    (printed : (n.map (Expr.operand scope)).arrayPointerText scope p = .ok text) :
    IsPhraseAt p text := by
  unfold Node.arrayPointerText at printed
  split at printed
  · rename_i isStorage
    obtain ⟨inner, printedInner, rfl⟩ : ∃ inner,
        (n.map (Expr.operand scope)).plainText scope .primary = .ok inner ∧
          inner ++ ".data()" = text := by simpa using printed
    have holds : n.ty.isArray = true := by
      have same : n.ty = _ := isStorage
      rw [same]
      rfl
    have data : IsIdentifier "data" := by decide
    exact plainText_take scopeNamed named apart h data (Or.inl holds) printedInner p
  · rename_i isShared
    obtain ⟨inner, printedInner, rfl⟩ : ∃ inner,
        (n.map (Expr.operand scope)).plainText scope .primary = .ok inner ∧
          inner ++ ".get()" = text := by simpa using printed
    have holds : n.ty.isArray = true := by
      have same : n.ty = _ := isShared
      rw [same]
      rfl
    have get : IsIdentifier "get" := by decide
    exact plainText_take scopeNamed named apart h get (Or.inl holds) printedInner p
  · exact (plainText_isPrinted scopeNamed named apart h printed).isPhraseAt

/-- The text of a node under a written cast. -/
theorem castText_isOperand {target : Ty} (isNumber : target = .float ∨ ∃ int, target = .integer int)
    (printed : (n.map (Expr.operand scope)).castText scope target = .ok text) :
    IsOperand false false text := by
  rw [Node.castText_eq] at printed
  obtain ⟨operand?, chosen, ty, spelled, inner, printedInner, rfl⟩ : ∃ operand?,
      (n.map (Expr.operand scope)).castOperand? Operand.literal? target = .ok operand? ∧ ∃ ty,
        target.spelling scope false = .ok ty ∧ ∃ inner,
          (n.map (Expr.operand scope)).castInner scope operand? = .ok inner ∧
            "static_cast<" ++ ty ++ ">(" ++ inner ++ ")" = text := by simpa using printed
  have read : IsPhraseAt .argument inner := by
    cases operand? with
    | none => exact (plainText_isPrinted scopeNamed named apart h printedInner).isPhraseAt
    | some operand =>
      have member := Node.mem_operandsOf_of_castOperand? chosen
      rw [Node.map, Shape.operandsOf_map] at member
      obtain ⟨e, listed, rfl⟩ := List.mem_map.1 member
      exact (h e listed).phrase printedInner
  obtain ⟨ts, t, phrase, derives⟩ := read
  exact isOperand_cast (spelling_mem_castTargets isNumber spelled)
    ⟨ts, t, phrase, .loosen (by decide) derives⟩

/-- The text of a node converted to a numeric type. -/
theorem numberText_isPhraseAt {target : Ty}
    (printed : (n.map (Expr.operand scope)).numberText scope target p = .ok text) :
    IsPhraseAt p text := by
  unfold Node.numberText at printed
  split at printed
  · exact (plainText_isPrinted scopeNamed named apart h printed).isPhraseAt
  · rename_i isSuffix
    obtain ⟨inner, printedInner, rfl⟩ : ∃ inner,
        (n.map (Expr.operand scope)).plainText scope .primary = .ok inner ∧
          inner ++ "f" = text := by simpa using printed
    obtain ⟨value, isLiteral⟩ := Node.literal_of_floatSuffix isSuffix
    have same : (n.map (Expr.operand scope)).plainText scope .primary = value.text := by
      rw [Node.plainText, isLiteral]
    rw [same] at printedInner
    have suffix : "f" ∈ Literal.suffixes := by decide
    exact (Literal.isOperand_suffix printedInner suffix).isPhraseAt p
  · rename_i isCast
    have isNumber := Node.target_of_castSelf isCast
    exact (castText_isOperand scopeNamed named apart h isNumber printed).isPhraseAt p
  · rename_i operand isOperand
    obtain ⟨int, rfl⟩ := Node.target_of_castOperand isOperand
    have member := Node.mem_operandsOf_of_numericCoercion isOperand
    rw [Node.map, Shape.operandsOf_map] at member
    obtain ⟨e, listed, rfl⟩ := List.mem_map.1 member
    exact ((h e listed).cast printed).isPhraseAt p

/-- The text of a node converted to a type that needs no pointer conversion. -/
theorem valueText_isPhraseAt {target : Ty}
    (printed : (n.map (Expr.operand scope)).valueText scope target p = .ok text) :
    IsPhraseAt p text := by
  obtain ⟨shape, ty⟩ := n
  cases shape with
  | select test positive negative =>
    exact (selectText_isPrinted (h test (by simp [Shape.operandsOf]))
      (h positive (by simp [Shape.operandsOf])) (h negative (by simp [Shape.operandsOf]))
      printed).isPhraseAt
  | _ => exact numberText_isPhraseAt scopeNamed named apart h printed

/-- The text of a node converted to a type. -/
theorem coercedText_isPhraseAt {target : Ty}
    (printed : (n.map (Expr.operand scope)).coercedText scope target p = .ok text) :
    IsPhraseAt p text := by
  unfold Node.coercedText at printed
  split at printed
  · exact valueText_isPhraseAt scopeNamed named apart h printed
  · exact valueText_isPhraseAt scopeNamed named apart h printed
  · obtain ⟨inner, printedInner, rfl⟩ : ∃ inner,
        (n.map (Expr.operand scope)).plainText scope .primary = .ok inner ∧
          "&" ++ inner = text := by simpa using printed
    exact (plainText_isPrinted scopeNamed named apart h printedInner).isOperand.address p
  · rename_i isShared
    obtain ⟨inner, printedInner, rfl⟩ : ∃ inner,
        (n.map (Expr.operand scope)).plainText scope .primary = .ok inner ∧
          inner ++ ".get()" = text := by simpa using printed
    have holds : n.ty.isClassPtr = true := by
      have same : n.ty = _ := isShared
      rw [same]
      rfl
    have get : IsIdentifier "get" := by decide
    exact plainText_take scopeNamed named apart h get (Or.inr holds) printedInner p
  · exact arrayPointerText_isPhraseAt scopeNamed named apart h printed
  · exact valueText_isPhraseAt scopeNamed named apart h printed

/-- A node is read as soon as its operands are. -/
theorem Operand.IsRead.node : (Expr.operand scope fun _ => .node n).IsRead where
  literal := by
    intro value p looked
    obtain ⟨shape, ty⟩ := n
    cases shape with
    | literal value' =>
      cases looked
      exact ⟨by rw [Operand.plain, Expr.operand, Expr.text_node]; rfl, rfl, rfl⟩
    | _ => cases looked
  plain := by
    intro p text printed
    rw [Operand.plain, Expr.operand, Expr.text_node] at printed
    exact plainText_isPrinted scopeNamed named apart h printed
  form := by
    intro form p text positioned printed
    rw [Expr.operand, Expr.text_node] at printed
    cases form with
    | plain => exact (plainText_isPrinted scopeNamed named apart h printed).isPhraseAt
    | coerced target => exact coercedText_isPhraseAt scopeNamed named apart h printed
    | cast target => exact absurd positioned id
    | arrayPointer => exact arrayPointerText_isPhraseAt scopeNamed named apart h printed
  cast := by
    intro int p text printed
    rw [Expr.operand, Expr.text_node] at printed
    exact castText_isOperand scopeNamed named apart h (Or.inr ⟨int, rfl⟩) printed

end Forms

/-- Every expression is read, in every form and for every position. -/
theorem Expr.isRead {scope : Scope} (scopeNamed : scope.Named) {e : Expr}
    (named : Expr.Every Node.Named e) (apart : Expr.Every Node.IsApart e) :
    (Expr.operand scope fun _ => e).IsRead := by
  induction e using Expr.induction with
  | dangling =>
    have noText (form : Form) (p : Precedence) {text : String} :
        (Expr.operand scope fun _ => .dangling).text form p ≠ .ok text := by
      simp [Expr.operand, Expr.text]
    have noLiteral (value : Literal) :
        (Expr.operand scope fun _ => .dangling).literal? ≠ .ok (some value) := by
      intro looked
      cases looked
    exact ⟨fun looked => absurd looked (noLiteral _), fun printed => absurd printed (noText _ _),
      fun _ printed => absurd printed (noText _ _), fun printed => absurd printed (noText _ _)⟩
  | node n ih =>
    obtain ⟨namedHere, namedBelow⟩ := named.parts
    obtain ⟨apartHere, apartBelow⟩ := apart.parts
    refine Operand.IsRead.node scopeNamed namedHere apartHere ?_
    intro e member
    exact ih e member (namedBelow e member) (apartBelow e member)

end CppPrinter
