import CppPrinter.Proofs.Expr.Induction
import CppPrinter.Proofs.Reading.Literal
import CppPrinter.Proofs.Reading.Operand

/-!
# Operators are read back

Expressions of operators over numbers and truth values have a tree of their own (`Denotes`). The
text of such an expression, printed for any position, is read to that tree and to no other
(`operators_read_back`): the levels and the parentheses keep the operands together, and the tokens
stay apart. The exception are the forms behind an operand that start with a dot: a number in front
of it swallows the dot, and a sign in front of the number or name is read last.
-/

namespace CppPrinter

/-- The type of a 32-bit integer or of a truth value. -/
def Ty.IsScalar (ty : Ty) : Prop := ty = .i32 ∨ ty = .bool

/-- The expression starts with an operator of its own. -/
def Expr.isPrefixed : Expr → Bool
  | .node ⟨.unary .., _⟩ => true
  | _ => false

def Expr.isLiteral : Expr → Bool
  | .node ⟨.literal _, _⟩ => true
  | _ => false

/-- The expression can be assigned to. -/
def Expr.isTarget : Expr → Bool
  | .node ⟨.symbol (.localName _), _⟩ | .node ⟨.member .., _⟩ | .node ⟨.binary .index .., _⟩ => true
  | _ => false

/-- What an operand is used as. -/
inductive Role where
  | value
  /-- The array that an element is taken from. -/
  | array
  /-- The object that a field is taken from. -/
  | object
  /-- The string that is searched. -/
  | receiver
  /-- The string that is searched for. -/
  | argument

namespace Role

/-- The types of the names that can be used so. -/
def Names : Role → Ty → Prop
  | value, ty => ty.IsScalar
  | array, ty => ty.isArray = true
  | object, ty => ty.isClassPtr = true
  | receiver, ty | argument, ty => ty.isString = true

/-- The values that can be used so. Neither arrays nor objects start with an operator. -/
def Takes : Role → Expr → Prop
  | array, e | object, e => e.isPrefixed = false
  | _, _ => True

end Role

/-- The expression is made of operators over 32-bit integers and truth values, and the tree is its
own. -/
inductive Denotes : Role → Expr → Tree → Prop where
  | name {role : Role} {name : String} {ty : Ty} (named : role.Names ty)
      (identifier : IsIdentifier name) :
      Denotes role (.node ⟨.symbol (.localName name), ty⟩) (.name [name])
  | int {value : Int64} {text : String} {ty : Ty} (scalar : ty.IsScalar)
      (natural : 0 ≤ value.toInt) (printed : (Literal.int value).text = .ok text) :
      Denotes .value (.node ⟨.literal (.int value), ty⟩) (.literal (.number text))
  | unary {op : UnaryOp} {e : Unit → Expr} {ty : Ty} {t : Tree} (scalar : ty.IsScalar) :
      Denotes .value (e ()) t →
      Denotes .value (.node ⟨.unary op e, ty⟩) (.prefixed op.symbol t)
  | step {op : StepOp} {e : Unit → Expr} {ty : Ty} {t : Tree} (scalar : ty.IsScalar)
      (bare : (e ()).isPrefixed = false) :
      Denotes .value (e ()) t →
      Denotes .value (.node ⟨.step op e, ty⟩) (.postfixed op.symbol t)
  | index {l r : Unit → Expr} {ty : Ty} {a i : Tree} (scalar : ty.IsScalar) :
      Denotes .array (l ()) a → Denotes .value (r ()) i →
      Denotes .value (.node ⟨.binary .index l r, ty⟩) (.index a i)
  | member {o : Unit → Expr} {owner : ClassId} {name : String} {ty objectTy : Ty} {t : Tree}
      (scalar : ty.IsScalar) (typed : (o ()).ty? = .ok objectTy)
      (identifier : IsIdentifier (camelCase name)) :
      Denotes .object (o ()) t →
      Denotes .value (.node ⟨.member o (.field owner name), ty⟩)
        (.member t (memberOperator objectTy) [camelCase name])
  | binary {op : BinaryOp} {l r : Unit → Expr} {ty : Ty} {x y : Tree} (scalar : ty.IsScalar)
      (computes : op.isAssign = false) (noIndex : op ≠ .index) :
      Denotes .value (l ()) x → Denotes .value (r ()) y →
      Denotes .value (.node ⟨.binary op l r, ty⟩) (.binary op.symbol x y)
  | assign {op : BinaryOp} {l r : Unit → Expr} {ty : Ty} {x y : Tree} (scalar : ty.IsScalar)
      (assigns : op.isAssign = true) (target : (l ()).isTarget = true) :
      Denotes .value (l ()) x → Denotes .value (r ()) y →
      Denotes .value (.node ⟨.binary op l r, ty⟩) (.assign op.symbol x y)
  | select {c t e : Unit → Expr} {ty : Ty} {x y z : Tree} (scalar : ty.IsScalar) :
      Denotes .value (c ()) x → Denotes .value (t ()) y → Denotes .value (e ()) z →
      Denotes .value (.node ⟨.select c t e, ty⟩) (.cond x y z)
  | contains {o a : Unit → Expr} {ty : Ty} {x y : Tree} (scalar : ty.IsScalar) :
      Denotes .receiver (o ()) x → Denotes .argument (a ()) y →
      Denotes .value (.node ⟨.call o (.library .stringContains) [a], ty⟩)
        (.binary "!=" (.call (.member x "." ["find"]) (.snoc .nil y))
          (.name ["std", "string", "npos"]))
  | ofValue {role : Role} {e : Expr} {t : Tree} (taken : role.Takes e) :
      Denotes .value e t → Denotes role e t

/-- The forms that start with a dot stand behind no number, and those of a string behind no
operator either. -/
def Node.DotsApart (n : Node (Unit → Expr)) : Prop :=
  match n.shape with
  | .member object _ => (object ()).isLiteral = false
  | .call object _ _ => (object ()).isLiteral = false ∧ (object ()).isPrefixed = false
  | _ => True

/-- The forms in which scalars and the names beside them are printed as they stand. -/
def Form.IsTransparent : Form → Prop
  | plain => True
  | coerced target => target.IsScalar ∨ target = .string .view
  | _ => False

theorem Role.Names.noWide {role : Role} {ty : Ty} (named : role.Names ty) :
    ty ≠ .integer .i64 ∧ ty ≠ .floatInt := by
  refine ⟨?_, ?_⟩ <;>
    · rintro rfl
      cases role <;> simp [Role.Names, Ty.IsScalar, Ty.i32, IntegerType.i64, Ty.isArray,
        Ty.isClassPtr, Ty.isString] at named

theorem Ty.IsScalar.noWide {ty : Ty} (scalar : ty.IsScalar) :
    ty ≠ .integer .i64 ∧ ty ≠ .floatInt := by
  have named : Role.value.Names ty := scalar
  exact named.noWide

/-- Numbers of at most 32 bits take no conversion. -/
theorem Node.numericCoercion_eq_none {ρ : Type} {n : Node ρ} {target : Ty}
    (transparent : target.IsScalar ∨ target = .string .view)
    (noWide : n.ty ≠ .integer .i64 ∧ n.ty ≠ .floatInt) : n.numericCoercion target = .none := by
  unfold Node.numericCoercion
  obtain ⟨noLong, noFloat⟩ := noWide
  rcases transparent with (rfl | rfl) | rfl
  · cases source : n.ty with
    | integer int =>
      have short : int ≠ .i64 := by
        rintro rfl
        exact noLong source
      simp [Ty.i32, short]
    | floatInt => exact absurd source noFloat
    | _ => rfl
  · rfl
  · rfl

section Text

variable (scope : Scope) {shape : Shape (Unit → Expr)} {ty : Ty} {form : Form} (p : Precedence)

/-- A scalar, or a name beside one, is printed as it stands in every transparent form. -/
theorem text_eq_plainText (noWide : ty ≠ .integer .i64 ∧ ty ≠ .floatInt)
    (noSelect : ∀ c t e, shape ≠ .select c t e) (transparent : form.IsTransparent) :
    (Expr.node ⟨shape, ty⟩).text scope form p =
      (Node.map (Expr.operand scope) ⟨shape, ty⟩).plainText scope p := by
  rw [Expr.text_node]
  cases form with
  | plain => rfl
  | coerced target =>
    have coercion := Node.numericCoercion_eq_none
      (n := Node.map (Expr.operand scope) ⟨shape, ty⟩) transparent noWide
    have value : (Node.map (Expr.operand scope) ⟨shape, ty⟩).valueText scope target p =
        (Node.map (Expr.operand scope) ⟨shape, ty⟩).plainText scope p := by
      cases shape with
      | select c t e => exact absurd rfl (noSelect c t e)
      | _ => simp only [Node.valueText, Node.map, Shape.map, Node.numberText] at coercion ⊢; rw [coercion]
    rw [← value]
    rcases transparent with (rfl | rfl) | rfl <;> rfl
  | cast target => exact absurd transparent id
  | arrayPointer => exact absurd transparent id

/-- A conditional is converted branch by branch. -/
theorem text_select {c t e : Unit → Expr} (scalar : ty.IsScalar)
    (transparent : form.IsTransparent) :
    ∃ target : Ty, (target.IsScalar ∨ target = .string .view) ∧
      (Expr.node ⟨.select c t e, ty⟩).text scope form p =
        selectText target (Expr.operand scope c) (Expr.operand scope t) (Expr.operand scope e) p := by
  rw [Expr.text_node]
  cases form with
  | plain => exact ⟨ty, Or.inl scalar, rfl⟩
  | coerced target =>
    refine ⟨target, transparent, ?_⟩
    rcases transparent with (rfl | rfl) | rfl <;> rfl
  | cast target => exact absurd transparent id
  | arrayPointer => exact absurd transparent id

end Text

/-- What is known of an operand without printing it: it exists, it has the type of its role or is a
scalar, and it takes no character from a string. -/
theorem Denotes.node {role : Role} {e : Expr} {t : Tree} (h : Denotes role e t) :
    ∃ n, e = .node n ∧ (role.Names n.ty ∨ n.ty.IsScalar) ∧
      ∀ l r, n.shape = .binary .index l r → ∃ ty, (l ()).ty? = .ok ty ∧ ty.isString = false := by
  induction h with
  | name named => exact ⟨_, rfl, Or.inl named, fun l r indexes => nomatch indexes⟩
  | index scalar _ _ ihArray =>
    refine ⟨_, rfl, Or.inr scalar, ?_⟩
    intro l r indexes
    cases indexes
    obtain ⟨n, atL, typed, -⟩ := ihArray
    refine ⟨n.ty, by rw [atL]; rfl, ?_⟩
    rcases typed with isArray | same | same
    · simp only [Role.Names] at isArray
      cases ty : n.ty <;> simp [ty, Ty.isArray] at isArray <;> rfl
    · rw [same]
      rfl
    · rw [same]
      rfl
  | @binary op l r _ _ _ scalar _ noIndex =>
    refine ⟨_, rfl, Or.inr scalar, ?_⟩
    intro l r indexes
    cases indexes
    exact absurd rfl noIndex
  | @assign op l r _ _ _ scalar assigns =>
    refine ⟨_, rfl, Or.inr scalar, ?_⟩
    intro l r indexes
    cases indexes
    cases assigns
  | int scalar | unary scalar | step scalar | member scalar | select scalar | contains scalar =>
    exact ⟨_, rfl, Or.inr scalar, fun l r indexes => nomatch indexes⟩
  | ofValue _ _ ih =>
    obtain ⟨n, atE, typed, noChar⟩ := ih
    refine ⟨n, atE, Or.inr ?_, noChar⟩
    rcases typed with scalar | scalar <;> exact scalar

section Binary

variable {scope : Scope} {l r : Unit → Expr} {x y : Tree} {tl tr : String} {p : Precedence}

theorem Denotes.ty? {e : Expr} {t : Tree} (h : Denotes .value e t) :
    ∃ ty, e.ty? = .ok ty ∧ ty.IsScalar := by
  obtain ⟨n, rfl, typed, -⟩ := h.node
  exact ⟨n.ty, rfl, typed.elim id id⟩

/-- No comparison of scalars is one of characters. -/
theorem Denotes.comparedChar?_eq (hl : Denotes .value (l ()) x) (right : TreeOperand) :
    comparedChar? (Expr.operand scope l) right = .ok none := by
  obtain ⟨⟨shape, ty⟩, atL, -, noChar⟩ := hl.node
  have looked : (Expr.operand scope l).node? = .ok ⟨shape, ty⟩ := by
    simp [Operand.node?, Expr.operand, atL, Expr.node?]
  rw [comparedChar?, looked, ok_bind]
  split
  · rename_i text _ indexes
    obtain ⟨base, typed, noString⟩ := noChar _ _ indexes
    simp [typed, noString]
  · rfl

/-- No scalars are compared as pointers. -/
theorem commonClass?_scalar {left right : Ty} (scalar : left.IsScalar) (scalar' : right.IsScalar) :
    commonClass? scope left right = .ok none := by
  rcases scalar with rfl | rfl <;> rcases scalar' with rfl | rfl <;> rfl

/-- An operator between two scalars, the left one of which is no element. -/
theorem binaryText_eq_of_scalar {op : BinaryOp} {leftTy rightTy : Ty}
    (computes : op.isAssign = false) (noIndex : op ≠ .index) (typedLeft : (l ()).ty? = .ok leftTy)
    (scalarLeft : leftTy.IsScalar) (typedRight : (r ()).ty? = .ok rightTy)
    (scalarRight : rightTy.IsScalar)
    (noChar : comparedChar? (Expr.operand scope l) (Expr.operand scope r) = .ok none)
    (left : (l ()).text scope .plain op.level = .ok tl)
    (right : (r ()).text scope .plain op.level.tighter = .ok tr) :
    binaryText scope op (Expr.operand scope l) (Expr.operand scope r) p =
      .ok (op.level.parenthesize p (between tl op.symbol tr)) := by
  have left' : (Expr.operand scope l).plain op.level = .ok tl := left
  have right' : (Expr.operand scope r).plain op.level.tighter = .ok tr := right
  have typedLeft' : (Expr.operand scope l).ty? = .ok leftTy := typedLeft
  have typedRight' : (Expr.operand scope r).ty? = .ok rightTy := typedRight
  have noClass : commonClass? scope leftTy rightTy = .ok none :=
    commonClass?_scalar scalarLeft scalarRight
  cases op with
  | arith op =>
    simp only [BinaryOp.level] at left' right'
    simp [binaryText, leftText, left', right', BinaryOp.level, BinaryOp.symbol]
  | and | or =>
    simp only [BinaryOp.level] at left' right'
    simp [binaryText, leftText, left', right', BinaryOp.level, BinaryOp.symbol]
  | order op =>
    simp only [BinaryOp.level] at left' right'
    simp [binaryText, comparisonText, noChar, left', right', BinaryOp.level, BinaryOp.symbol]
  | eq | notEq =>
    simp only [BinaryOp.level] at left' right'
    simp [binaryText, equalityText, typedLeft', typedRight', noClass, comparisonText, noChar,
      left', right', BinaryOp.level, BinaryOp.symbol]
  | index => exact absurd rfl noIndex
  | assign | update => cases computes

theorem binaryText_eq {op : BinaryOp} (computes : op.isAssign = false) (noIndex : op ≠ .index)
    (hl : Denotes .value (l ()) x) (hr : Denotes .value (r ()) y)
    (left : (l ()).text scope .plain op.level = .ok tl)
    (right : (r ()).text scope .plain op.level.tighter = .ok tr) :
    binaryText scope op (Expr.operand scope l) (Expr.operand scope r) p =
      .ok (op.level.parenthesize p (between tl op.symbol tr)) := by
  obtain ⟨leftTy, typedLeft, scalarLeft⟩ := hl.ty?
  obtain ⟨rightTy, typedRight, scalarRight⟩ := hr.ty?
  exact binaryText_eq_of_scalar computes noIndex typedLeft scalarLeft typedRight scalarRight
    (hl.comparedChar?_eq _) left right

/-- A scalar is assigned as it stands. -/
theorem assignedText_eq (hl : Denotes .value (l ()) x) (hr : Denotes .value (r ()) y)
    (right : ∀ form : Form, form.IsTransparent → (r ()).text scope form .argument = .ok tr) :
    assignedText (Expr.operand scope l) (Expr.operand scope r) = .ok tr := by
  obtain ⟨target, atL, typed, -⟩ := hl.node
  obtain ⟨source, atR, typed', -⟩ := hr.node
  have scalar : target.ty.IsScalar := typed.elim id id
  have scalar' : source.ty.IsScalar := typed'.elim id id
  have coerced : (Expr.operand scope r).coerced target.ty .argument = .ok tr :=
    right (.coerced target.ty) (Or.inl scalar)
  have looked : (Expr.operand scope l).node? = .ok target := by
    simp [Operand.node?, Expr.operand, atL, Expr.node?]
  have looked' : (Expr.operand scope r).node? = .ok source := by
    simp [Operand.node?, Expr.operand, atR, Expr.node?]
  have store : source.indexedStore target.ty = .ok .coerce := by
    unfold Node.indexedStore
    rcases scalar with same | same <;> rcases scalar' with same' | same' <;> rw [same, same']
    · cases source.isPromoted <;> rfl
    all_goals rfl
  rw [assignedText, looked, ok_bind]
  split
  · simp [looked', store, coerced]
  · exact coerced

theorem assignText_eq {op : BinaryOp} (assigns : op.isAssign = true)
    (hl : Denotes .value (l ()) x) (hr : Denotes .value (r ()) y)
    (left : (l ()).text scope .plain .assign = .ok tl)
    (right : ∀ form : Form, form.IsTransparent → (r ()).text scope form .argument = .ok tr) :
    binaryText scope op (Expr.operand scope l) (Expr.operand scope r) p =
      .ok (Precedence.assign.parenthesize p (between tl op.symbol tr)) := by
  have left' : (Expr.operand scope l).plain .assign = .ok tl := left
  have right' : (Expr.operand scope r).plain .argument = .ok tr := right .plain trivial
  have assigned := assignedText_eq hl hr right
  cases op with
  | assign => simp [binaryText, assignText, left', assigned, BinaryOp.symbol]
  | update op => simp [binaryText, updateText, left', right', BinaryOp.symbol]
  | _ => cases assigns

end Binary

/-- The text of a natural number is one token. -/
theorem Phrase.int {value : Int64} {text : String} (natural : 0 ≤ value.toInt)
    (printed : (Literal.int value).text = .ok text) : Phrase text [.number text] := by
  obtain ⟨magnitude, numeral, shape⟩ := Literal.text_eq_of_isNumber rfl printed
  have noSign : (Literal.int value).isNegative = false := by
    simp [Literal.isNegative, natural]
  rw [noSign] at shape
  rw [shape]
  exact numeral.phrase

/-- Neither arrays nor objects start with an operator. -/
theorem Denotes.bare {role : Role} {e : Expr} {t : Tree} (h : Denotes role e t)
    (base : role = .array ∨ role = .object) : e.isPrefixed = false := by
  rcases base with rfl | rfl <;> cases h with
  | name => rfl
  | ofValue taken => exact taken

/-- Only literals are read as numbers. -/
theorem Denotes.noNumber {role : Role} {e : Expr} {t : Tree} (h : Denotes role e t)
    (noLiteral : e.isLiteral = false) (digits : String) : t ≠ .literal (.number digits) := by
  induction h with
  | int => cases noLiteral
  | ofValue _ _ ih => exact ih noLiteral
  | _ => simp

/-- In all transparent forms the expression has the same text at a level, it is read to the tree,
and at the tightest level any form may stand behind it, unless it starts with an operator. -/
def IsReadBack (scope : Scope) (e : Expr) (t : Tree) : Prop :=
  ∀ p : Precedence, ∃ text ts,
    (∀ form : Form, form.IsTransparent → e.text scope form p = .ok text) ∧
      Phrase text ts ∧ Derives (.level p) ts t ∧
      (p = .primary → e.isPrefixed = false → Derives .tight ts t)

section Search

variable {text part : String} {os as : List Token} {x y : Tree}

/-- The tokens of a search in a string. -/
def searchTokens (os as : List Token) : List Token :=
  os ++ [Token.mark ".", .word "find"] ++ .mark "(" :: (as ++ [Token.mark ")"]) ++ .mark "!=" :: nposTokens

/-- A string is searched for a string. -/
theorem searchText_eq {string searched : TreeOperand} (noLiteral : string.literal? = .ok none)
    (receiver : string.plain .primary = .ok text)
    (argument : searched.coerced (.string .view) .argument = .ok part) (p : Precedence) :
    libraryCallText .stringContains string [searched] p =
      .ok (Precedence.equality.parenthesize p
        (text ++ "." ++ "find" ++ "(" ++ part ++ ")" ++ " != std::string::npos")) := by
  simp [libraryCallText, stringCallText, noLiteral, viewSuffix, receiver, argumentsText,
    argumentTexts, argument]

theorem Phrase.search (h : Phrase text os) (noNumber : ∀ digits, tailOf text ≠ .number digits)
    (h' : Spells part as) :
    Phrase (text ++ "." ++ "find" ++ "(" ++ part ++ ")" ++ " != std::string::npos")
      (searchTokens os as) := by
  have find : IsIdentifier "find" := by decide
  have isReach : "." ∈ Phrase.reachOps := by decide
  have spaced : Spells (" " ++ "!=") [.mark "!="] := by decide
  have call := (h.member isReach (fun _ => noNumber) find).call h'
  have shape : CppPrinter.between (text ++ "." ++ "find" ++ "(" ++ part ++ ")") "!="
      "std::string::npos" =
        text ++ "." ++ "find" ++ "(" ++ part ++ ")" ++ " != std::string::npos" := by
    simp only [CppPrinter.between, String.append_assoc]
    rfl
  rw [← shape]
  exact call.between spaced .npos

theorem Derives.search (h : Derives .tight os x) (h' : Derives (.level .argument) as y) :
    Derives (.level .equality) (searchTokens os as)
      (.binary "!=" (.call (.member x "." ["find"]) (.snoc .nil y))
        (.name ["std", "string", "npos"])) := by
  have find : "find" ∉ keywords := by decide
  have isMember : "." ∈ memberOps := by decide
  have atLevel : ("!=", .equality) ∈ infixOps := by decide
  have call := Derives.call (.member isMember find h) (.firstItem h')
  exact Derives.binary atLevel (call.ofTightAt .equality) (derives_npos.ofTightAt .rel)

end Search

section Cases

variable {scope : Scope} {l r c o : Unit → Expr} {x y z : Tree} {ty : Ty}

theorem isReadBack_unary (op : UnaryOp) (scalar : ty.IsScalar) (h : IsReadBack scope (l ()) x) :
    IsReadBack scope (.node ⟨.unary op l, ty⟩) (.prefixed op.symbol x) := by
  intro p
  obtain ⟨text, ts, printed, phrase, derives, -⟩ := h .primary
  have printed' : (Expr.operand scope l).plain .primary = .ok text := printed .plain trivial
  have isPrefix : op.symbol ∈ prefixOps := op.symbol_mem
  have whole : ∀ form : Form, form.IsTransparent →
      (Expr.node ⟨.unary op l, ty⟩).text scope form p = unaryText op (Expr.operand scope l) :=
    fun form transparent =>
      text_eq_plainText scope p scalar.noWide (by simp) transparent
  by_cases merge : signsMerge op.symbol text
  · refine ⟨op.symbol ++ "(" ++ text ++ ")", _, ?_, phrase.signParen op, ?_, fun _ => nofun⟩
    · intro form transparent
      simp [whole form transparent, unaryText, printed', merge]
    · exact (Derives.prefixed isPrefix (derives.parenthesized.ofTightAt _)).ofPrimary p
  · rw [Bool.not_eq_true] at merge
    refine ⟨op.symbol ++ text, _, ?_, phrase.sign op merge, ?_, fun _ => nofun⟩
    · intro form transparent
      simp [whole form transparent, unaryText, printed', merge]
    · exact (Derives.prefixed isPrefix derives).ofPrimary p

theorem isReadBack_step (op : StepOp) (scalar : ty.IsScalar) (h : IsReadBack scope (l ()) x)
    (bare : (l ()).isPrefixed = false) :
    IsReadBack scope (.node ⟨.step op l, ty⟩) (.postfixed op.symbol x) := by
  intro p
  obtain ⟨text, ts, printed, phrase, -, tight⟩ := h .primary
  have printed' : (Expr.operand scope l).plain .primary = .ok text := printed .plain trivial
  have isPostfix : op.symbol ∈ postfixOps := by cases op <;> decide
  have derives := Derives.postfixed isPostfix (tight rfl bare)
  refine ⟨text ++ op.symbol, _, ?_, phrase.step op, derives.ofTightAt p, fun _ _ => derives⟩
  intro form transparent
  rw [text_eq_plainText scope p scalar.noWide (by simp) transparent]
  simp [Node.map, Shape.map, Node.plainText, stepText, printed']

theorem isReadBack_index (scalar : ty.IsScalar) (h : IsReadBack scope (l ()) x)
    (bare : (l ()).isPrefixed = false) (h' : IsReadBack scope (r ()) y) :
    IsReadBack scope (.node ⟨.binary .index l r, ty⟩) (.index x y) := by
  intro p
  obtain ⟨array, as, printedArray, phrase, -, tight⟩ := h .primary
  obtain ⟨position, is, printedPosition, phrase', derives', -⟩ := h' .statement
  have left : (Expr.operand scope l).plain .primary = .ok array := printedArray .plain trivial
  have right : (Expr.operand scope r).plain .statement = .ok position :=
    printedPosition .plain trivial
  have derives := Derives.index (tight rfl bare) derives'
  refine ⟨array ++ "[" ++ position ++ "]", _, ?_, phrase.index phrase'.spells,
    derives.ofTightAt p, fun _ _ => derives⟩
  intro form transparent
  rw [text_eq_plainText scope p scalar.noWide (by simp) transparent]
  simp [Node.map, Shape.map, Node.plainText, binaryText, indexText, left, right]

theorem isReadBack_member {owner : ClassId} {name : String} {objectTy : Ty} (scalar : ty.IsScalar)
    (typed : (o ()).ty? = .ok objectTy) (identifier : IsIdentifier (camelCase name))
    (h : IsReadBack scope (o ()) x) (bare : (o ()).isPrefixed = false)
    (noNumber : ∀ digits, x ≠ .literal (.number digits)) :
    IsReadBack scope (.node ⟨.member o (.field owner name), ty⟩)
      (.member x (memberOperator objectTy) [camelCase name]) := by
  intro p
  obtain ⟨object, os, printed, phrase, -, tight⟩ := h .primary
  have object' : (Expr.operand scope o).plain .primary = .ok object := printed .plain trivial
  have typed' : (Expr.operand scope o).ty? = .ok objectTy := typed
  have isMember : memberOperator objectTy ∈ memberOps := by
    unfold memberOperator
    split <;> decide
  have isReach : memberOperator objectTy ∈ Phrase.reachOps := by
    unfold memberOperator
    split <;> decide
  have derives := Derives.member isMember identifier.free (tight rfl bare)
  have apart := phrase.noNumber (tight rfl bare) noNumber
  refine ⟨object ++ memberOperator objectTy ++ camelCase name, _, ?_,
    phrase.member isReach (fun _ => apart) identifier, derives.ofTightAt p, fun _ _ => derives⟩
  intro form transparent
  rw [text_eq_plainText scope p scalar.noWide (by simp) transparent]
  simp [Node.map, Shape.map, Node.plainText, memberText, Symbol.memberName, Symbol.isScoped, object',
    typed']

theorem isReadBack_binary {op : BinaryOp} (scalar : ty.IsScalar) (computes : op.isAssign = false)
    (noIndex : op ≠ .index) (hl : Denotes .value (l ()) x) (hr : Denotes .value (r ()) y)
    (h : IsReadBack scope (l ()) x) (h' : IsReadBack scope (r ()) y) :
    IsReadBack scope (.node ⟨.binary op l r, ty⟩) (.binary op.symbol x y) := by
  intro p
  obtain ⟨atLevel, spaced⟩ := BinaryOp.symbol_of_computes computes noIndex
  have loose : op.level ≠ .primary := by
    cases op with
    | arith op => cases op <;> decide
    | index => exact absurd rfl noIndex
    | _ => nofun
  obtain ⟨left, ls, printedLeft, phrase, derives, -⟩ := h op.level
  obtain ⟨right, rs, printedRight, phrase', derives', -⟩ := h' op.level.tighter
  have whole := (phrase.between spaced phrase').parenthesize (.binary atLevel derives derives')
    loose p
  obtain ⟨us, phrase'', derives'', tight⟩ := whole
  refine ⟨_, us, ?_, phrase'', derives'', fun tightest _ => tight tightest⟩
  intro form transparent
  rw [text_eq_plainText scope p scalar.noWide (by simp) transparent]
  exact binaryText_eq computes noIndex hl hr (printedLeft .plain trivial)
    (printedRight .plain trivial)

/-- What can be assigned to is printed alike everywhere, and starts with no operator. -/
theorem Expr.text_target {e : Expr} (target : e.isTarget = true) (p q : Precedence) :
    e.text scope .plain p = e.text scope .plain q ∧ e.isPrefixed = false := by
  unfold Expr.isTarget at target
  split at target
  · exact ⟨by simp only [Expr.text_node]; rfl, rfl⟩
  · exact ⟨by simp only [Expr.text_node]; rfl, rfl⟩
  · exact ⟨by simp only [Expr.text_node]; rfl, rfl⟩
  · cases target

theorem isReadBack_assign {op : BinaryOp} (scalar : ty.IsScalar) (assigns : op.isAssign = true)
    (hl : Denotes .value (l ()) x) (hr : Denotes .value (r ()) y)
    (h : IsReadBack scope (l ()) x) (h' : IsReadBack scope (r ()) y)
    (target : (l ()).isTarget = true) :
    IsReadBack scope (.node ⟨.binary op l r, ty⟩) (.assign op.symbol x y) := by
  intro p
  obtain ⟨isAssign, spaced⟩ := BinaryOp.symbol_of_isAssign assigns
  obtain ⟨anywhere, bare⟩ : (l ()).text scope .plain .assign = (l ()).text scope .plain .primary ∧
      (l ()).isPrefixed = false := Expr.text_target target .assign .primary
  obtain ⟨left, ls, printedLeft, phrase, -, tight⟩ := h .primary
  obtain ⟨right, rs, printedRight, phrase', derives', -⟩ := h' .argument
  have derives := Derives.assign isAssign ((tight rfl bare).ofTightAt .condOr) derives'
  obtain ⟨us, whole, derivesWhole, tightWhole⟩ :=
    (phrase.between spaced phrase').parenthesize derives (by decide) p
  refine ⟨_, us, ?_, whole, derivesWhole, fun tightest _ => tightWhole tightest⟩
  intro form transparent
  rw [text_eq_plainText scope p scalar.noWide (by simp) transparent]
  exact assignText_eq assigns hl hr (anywhere.trans (printedLeft .plain trivial)) printedRight

theorem isReadBack_select (scalar : ty.IsScalar) (h : IsReadBack scope (c ()) x)
    (h' : IsReadBack scope (l ()) y) (h'' : IsReadBack scope (r ()) z) :
    IsReadBack scope (.node ⟨.select c l r, ty⟩) (.cond x y z) := by
  intro p
  obtain ⟨test, cs, printedTest, phrase, derives, -⟩ := h .condOr
  obtain ⟨positive, ts, printedPositive, phrase', derives', -⟩ := h' .select
  obtain ⟨negative, es, printedNegative, phrase'', derives'', -⟩ := h'' .select
  have derivesCond :=
    Derives.cond derives (.loosen (by decide) derives') (.loosen (by decide) derives'')
  obtain ⟨us, whole, derivesWhole, tightWhole⟩ :=
    (phrase.cond phrase' phrase'').parenthesize derivesCond (by decide) p
  refine ⟨_, us, ?_, whole, derivesWhole, fun tightest _ => tightWhole tightest⟩
  intro form transparent
  obtain ⟨target, transparent', printed⟩ :=
    text_select scope p (c := c) (t := l) (e := r) scalar transparent
  have test' : (Expr.operand scope c).plain .condOr = .ok test := printedTest .plain trivial
  have positive' : (Expr.operand scope l).coerced target .select = .ok positive :=
    printedPositive (.coerced target) transparent'
  have negative' : (Expr.operand scope r).coerced target .select = .ok negative :=
    printedNegative (.coerced target) transparent'
  rw [printed]
  simp [selectText, test', positive', negative']

theorem isReadBack_contains (scalar : ty.IsScalar) (h : IsReadBack scope (o ()) x)
    (bare : (o ()).isPrefixed = false) (noLiteral : (o ()).literal? = .ok none)
    (noNumber : ∀ digits, x ≠ .literal (.number digits)) (h' : IsReadBack scope (l ()) y) :
    IsReadBack scope (.node ⟨.call o (.library .stringContains) [l], ty⟩)
      (.binary "!=" (.call (.member x "." ["find"]) (.snoc .nil y))
        (.name ["std", "string", "npos"])) := by
  intro p
  obtain ⟨receiver, os, printed, phrase, -, tight⟩ := h .primary
  obtain ⟨argument, as, printedArgument, phrase', derives', -⟩ := h' .argument
  have receiver' : (Expr.operand scope o).plain .primary = .ok receiver := printed .plain trivial
  have argument' : (Expr.operand scope l).coerced (.string .view) .argument = .ok argument :=
    printedArgument (.coerced (.string .view)) (Or.inr rfl)
  have noLiteral' : (Expr.operand scope o).literal? = .ok none := noLiteral
  have search := phrase.search (phrase.noNumber (tight rfl bare) noNumber) phrase'.spells
  obtain ⟨us, whole, derivesWhole, tightWhole⟩ :=
    search.parenthesize ((tight rfl bare).search derives') (by decide) p
  refine ⟨_, us, ?_, whole, derivesWhole, fun tightest _ => tightWhole tightest⟩
  intro form transparent
  rw [text_eq_plainText scope p scalar.noWide (by simp) transparent]
  exact searchText_eq noLiteral' receiver' argument' p

end Cases

/-- Every operand is read back, and so is what is made of them. -/
theorem Denotes.isReadBack {scope : Scope} {role : Role} {e : Expr} {t : Tree}
    (h : Denotes role e t) (apart : Expr.Every Node.DotsApart e) : IsReadBack scope e t := by
  induction h with
  | name named identifier =>
    intro p
    have derives := Derives.name identifier.namesOperand
    refine ⟨_, _, ?_, Phrase.name identifier, derives.ofTightAt p, fun _ _ => derives⟩
    intro form transparent
    exact text_eq_plainText scope p named.noWide (by simp) transparent
  | @int value text ty scalar natural printed =>
    intro p
    have derives : Derives .tight [.number text] (.literal (.number text)) := .literal rfl
    refine ⟨text, _, ?_, Phrase.int natural printed, derives.ofTightAt p, fun _ _ => derives⟩
    intro form transparent
    rw [← printed]
    exact text_eq_plainText scope p scalar.noWide (by simp)
      transparent
  | unary scalar _ ih =>
    exact isReadBack_unary _ scalar (ih (apart.parts.2 _ (by simp [Shape.operandsOf])))
  | step scalar bare _ ih =>
    exact isReadBack_step _ scalar (ih (apart.parts.2 _ (by simp [Shape.operandsOf]))) bare
  | index scalar array _ ihArray ihPosition =>
    exact isReadBack_index scalar (ihArray (apart.parts.2 _ (by simp [Shape.operandsOf])))
      (array.bare (Or.inl rfl)) (ihPosition (apart.parts.2 _ (by simp [Shape.operandsOf])))
  | member scalar typed identifier object ih =>
    obtain ⟨noLiteral, below⟩ := apart.parts
    exact isReadBack_member scalar typed identifier (ih (below _ (by simp [Shape.operandsOf])))
      (object.bare (Or.inr rfl)) (object.noNumber noLiteral)
  | binary scalar computes noIndex hl hr ihLeft ihRight =>
    exact isReadBack_binary scalar computes noIndex hl hr
      (ihLeft (apart.parts.2 _ (by simp [Shape.operandsOf])))
      (ihRight (apart.parts.2 _ (by simp [Shape.operandsOf])))
  | assign scalar assigns target hl hr ihLeft ihRight =>
    exact isReadBack_assign scalar assigns hl hr
      (ihLeft (apart.parts.2 _ (by simp [Shape.operandsOf])))
      (ihRight (apart.parts.2 _ (by simp [Shape.operandsOf]))) target
  | select scalar _ _ _ ihTest ihPositive ihNegative =>
    exact isReadBack_select scalar (ihTest (apart.parts.2 _ (by simp [Shape.operandsOf])))
      (ihPositive (apart.parts.2 _ (by simp [Shape.operandsOf])))
      (ihNegative (apart.parts.2 _ (by simp [Shape.operandsOf])))
  | @contains o a ty x y scalar receiver argument ihReceiver ihArgument =>
    obtain ⟨⟨noLiteral, bare⟩, below⟩ := apart.parts
    obtain ⟨⟨shape, receiverTy⟩, atReceiver, -, -⟩ := receiver.node
    have looked : (o ()).literal? = .ok none := by
      rw [atReceiver] at noLiteral ⊢
      cases shape with
      | literal value => cases noLiteral
      | _ => rfl
    exact isReadBack_contains scalar (ihReceiver (below _ (by simp [Shape.operandsOf]))) bare
      looked (receiver.noNumber noLiteral) (ihArgument (below _ (by simp [Shape.operandsOf])))
  | ofValue _ _ ih => exact ih apart

/-- An expression of operators over scalars is printed for any position, and its text is read to its
own tree and to no other, unless a number stands in front of a dot, or a number or an operator in
front of a search. -/
theorem operators_read_back (scope : Scope) {e : Expr} {t : Tree} (h : Denotes .value e t)
    (apart : Expr.Every Node.DotsApart e) (p : Precedence) :
    ∃ text, e.text scope .plain p = .ok text ∧ ReadsAt p text t ∧ ∀ u, Reads text u → u = t := by
  have readBack : IsReadBack scope e t := h.isReadBack apart
  obtain ⟨text, ts, printed, phrase, derives, -⟩ := readBack p
  have reads : ReadsAt p text t := ⟨ts, phrase.spells, derives⟩
  exact ⟨text, printed .plain trivial, reads, fun u reads' => reads.unique reads'⟩

section Samples

/-- A local variable of 32 bits. -/
def localInt (name : String) : Expr := .node ⟨.symbol (.localName name), .i32⟩

theorem denotes_localInt {name : String} (identifier : IsIdentifier name) :
    Denotes .value (localInt name) (.name [name]) := by
  have named : Role.value.Names .i32 := Or.inl rfl
  exact .name named identifier

/-- The difference of a variable and another difference, of a number with two signs and a
variable that steps. -/
def nestedDifference : Expr :=
  .node ⟨.binary (.arith .sub) (fun _ => localInt "x") (fun _ => .node ⟨.binary (.arith .sub)
    (fun _ => .node ⟨.unary .neg (fun _ => .node ⟨.unary .neg (fun _ => localInt "y"), .i32⟩), .i32⟩)
    (fun _ => .node ⟨.step .decrement (fun _ => localInt "z"), .i32⟩), .i32⟩), .i32⟩

theorem operators_read_back_nestedDifference :
    ∃ text, nestedDifference.text ⟨#[], #[]⟩ .plain .mul = .ok text ∧
      ReadsAt .mul text (.binary "-" (.name ["x"])
        (.binary "-" (.prefixed "-" (.prefixed "-" (.name ["y"])))
          (.postfixed "--" (.name ["z"])))) ∧
      ∀ u, Reads text u → u = .binary "-" (.name ["x"])
        (.binary "-" (.prefixed "-" (.prefixed "-" (.name ["y"])))
          (.postfixed "--" (.name ["z"]))) := by
  have scalar : Ty.i32.IsScalar := Or.inl rfl
  have x : Denotes .value (localInt "x") (.name ["x"]) := denotes_localInt (by decide)
  have y : Denotes .value (localInt "y") (.name ["y"]) := denotes_localInt (by decide)
  have z : Denotes .value (localInt "z") (.name ["z"]) := denotes_localInt (by decide)
  have minus {l r : Unit → Expr} {t u : Tree} (h : Denotes .value (l ()) t)
      (h' : Denotes .value (r ()) u) :
      Denotes .value (.node ⟨.binary (.arith .sub) l r, .i32⟩) (.binary "-" t u) :=
    .binary scalar rfl nofun h h'
  have leaf : ∀ name, Expr.Every Node.DotsApart (localInt name) :=
    fun name => .node _ trivial (List.forall_mem_nil _)
  have unary {e : Unit → Expr} (h : Expr.Every Node.DotsApart (e ())) :
      Expr.Every Node.DotsApart (.node ⟨.unary .neg e, .i32⟩) :=
    .node _ trivial (List.forall_mem_singleton.2 h)
  have step {e : Unit → Expr} (h : Expr.Every Node.DotsApart (e ())) :
      Expr.Every Node.DotsApart (.node ⟨.step .decrement e, .i32⟩) :=
    .node _ trivial (List.forall_mem_singleton.2 h)
  have binary {l r : Unit → Expr} (h : Expr.Every Node.DotsApart (l ()))
      (h' : Expr.Every Node.DotsApart (r ())) :
      Expr.Every Node.DotsApart (.node ⟨.binary (.arith .sub) l r, .i32⟩) :=
    .node _ trivial (List.forall_mem_cons.2 ⟨h, List.forall_mem_singleton.2 h'⟩)
  exact operators_read_back ⟨#[], #[]⟩
    (minus x (minus (.unary scalar (.unary scalar y)) (.step scalar rfl z)))
    (binary (leaf "x") (binary (unary (unary (leaf "y"))) (step (leaf "z")))) .mul

/-- A field of the number five. -/
def fieldOfNumber : Expr :=
  .node ⟨.member (fun _ => .node ⟨.literal (.int 5), .i32⟩) (.field ⟨0⟩ "F"), .i32⟩

/-- A number in front of a dot takes the dot and the name behind it. -/
theorem number_takes_dot :
    Denotes .value fieldOfNumber (.member (.literal (.number "5")) "." ["f"]) ∧
      fieldOfNumber.text ⟨#[], #[]⟩ .plain .statement = .ok "5.f" ∧
      ¬ Reads "5.f" (.member (.literal (.number "5")) "." ["f"]) := by
  refine ⟨?_, ?_, ?_⟩
  · have object : Denotes .object (.node ⟨.literal (.int 5), .i32⟩) (.literal (.number "5")) :=
      .ofValue rfl (.int (Or.inl rfl) (by decide) rfl)
    have typed : (Expr.node ⟨.literal (.int 5), .i32⟩).ty? = .ok .i32 := rfl
    exact .member (o := fun _ => .node ⟨.literal (.int 5), .i32⟩) (Or.inl rfl) typed (by decide)
      object
  · rfl
  · intro reads
    have read : read? "5.f" = some (.literal (.number "5.f")) := by decide
    rw [reads.read?_eq] at read
    cases read

end Samples

end CppPrinter
