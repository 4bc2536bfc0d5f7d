import CppPrinter.Proofs.Reading.Trim

/-!
# Parentheses are minimal

The printer puts an operand into parentheses where its operator binds looser than its position asks,
which is what the tree demands, and behind a sign where the operand starts with the same sign. So no
parenthesis is spare (`Operates.exists_isTrimmed`), and none can be left out
(`every_parenthesis_is_needed`).
-/

namespace CppPrinter

/-- The expression is a local variable. -/
def Expr.isLocal : Expr → Bool
  | .node ⟨.symbol (.localName _), _⟩ => true
  | _ => false

/-- The type of the expression is that of a 32-bit integer or of a truth value. -/
def Expr.IsScalar (e : Expr) : Prop := ∃ ty, e.ty? = .ok ty ∧ ty.IsScalar

/-- The expression is made of local variables, natural numbers, operators before an operand,
operators between scalars, conditionals with scalars and searches in strings, and the tree is its
own. Only a variable is stepped. -/
inductive Operates : Expr → Tree → Prop where
  | name {name : String} {ty : Ty} (identifier : IsIdentifier name) :
      Operates (.node ⟨.symbol (.localName name), ty⟩) (.name [name])
  | int {value : Int64} {text : String} {ty : Ty} (natural : 0 ≤ value.toInt)
      (printed : (Literal.int value).text = .ok text) :
      Operates (.node ⟨.literal (.int value), ty⟩) (.literal (.number text))
  | unary {op : UnaryOp} {e : Unit → Expr} {ty : Ty} {t : Tree}
      (steps : op.isStep = true → (e ()).isLocal = true) :
      Operates (e ()) t → Operates (.node ⟨.unary op e, ty⟩) (.prefixed op.symbol t)
  | binary {op : BinaryOp} {l r : Unit → Expr} {ty : Ty} {x y : Tree}
      (computes : op.isAssign = false) (noIndex : op ≠ .index) (scalar : (l ()).IsScalar)
      (scalar' : (r ()).IsScalar) :
      Operates (l ()) x → Operates (r ()) y →
      Operates (.node ⟨.binary op l r, ty⟩) (.binary op.symbol x y)
  | select {c l r : Unit → Expr} {ty : Ty} {x y z : Tree} (scalar : ty.IsScalar)
      (left : (l ()).IsScalar) (right : (r ()).IsScalar) :
      Operates (c ()) x → Operates (l ()) y → Operates (r ()) z →
      Operates (.node ⟨.select c l r, ty⟩) (.cond x y z)
  | contains {o a : Unit → Expr} {ty string string' : Ty} {text part : String}
      (isString : string.isString = true) (isString' : string'.isString = true)
      (identifier : IsIdentifier text) (identifier' : IsIdentifier part)
      (object : o () = .node ⟨.symbol (.localName text), string⟩)
      (argument : a () = .node ⟨.symbol (.localName part), string'⟩) :
      Operates (.node ⟨.call o (.library .stringContains) [a], ty⟩)
        (.binary "!=" (.call (.member (.name [text]) "." ["find"]) (.snoc .nil (.name [part])))
          (.name ["std", "string", "npos"]))

/-- The expression is printed as the pieces, which are read to the tree and have no parentheses to
spare. It binds no looser than a conditional, so it fits the place of a branch as it is. -/
structure IsTrimmed (scope : Scope) (e : Expr) (t : Tree) (pieces : List Piece) : Prop where
  trim : Trim t.rank t pieces
  printed : ∀ (form : Form) (p : Precedence), form.IsTransparent → (form = .plain ∨ e.IsScalar) →
    e.text scope form p = .ok (render (enclose (t.fits (.level p)) pieces))
  high : Precedence.select.level ≤ t.rank.height

section Cases

variable {scope : Scope} {c l r e : Unit → Expr} {x y z t : Tree} {ty : Ty}
  {xs ys zs pieces : List Piece}

theorem Expr.isScalar_node {n : Node (Unit → Expr)} (h : (Expr.node n).IsScalar) :
    n.ty.IsScalar := by
  obtain ⟨ty, typed, scalar⟩ := h
  cases typed
  exact scalar

/-- Anything but a conditional is printed as it stands in every transparent form. -/
theorem text_eq_plainText_of_plain {shape : Shape (Unit → Expr)} {form : Form} (p : Precedence)
    (noSelect : ∀ c t e, shape ≠ .select c t e) (transparent : form.IsTransparent)
    (asked : form = .plain ∨ (Expr.node ⟨shape, ty⟩).IsScalar) :
    (Expr.node ⟨shape, ty⟩).text scope form p =
      (Node.map (Expr.operand scope) ⟨shape, ty⟩).plainText scope p := by
  rcases asked with rfl | scalar
  · rw [Expr.text_node]
    rfl
  · exact text_eq_plainText scope p (Expr.isScalar_node scalar).noWide noSelect transparent

theorem isTrimmed_name {name : String} (identifier : IsIdentifier name) :
    IsTrimmed scope (.node ⟨.symbol (.localName name), ty⟩) (.name [name])
      [.token (.word name)] where
  trim := .name identifier
  printed form p transparent asked := by
    have fits : (Tree.name [name]).fits (.level p) = true :=
      Tree.fits_of_primary (by show 14 ≤ 15; omega) p
    rw [text_eq_plainText_of_plain p (by simp) transparent asked, fits]
    simp [Node.map, Shape.map, Node.plainText, Symbol.text]
  high := show 3 ≤ 15 by omega

theorem isTrimmed_int {value : Int64} {text : String} (natural : 0 ≤ value.toInt)
    (printed : (Literal.int value).text = .ok text) :
    IsTrimmed scope (.node ⟨.literal (.int value), ty⟩) (.literal (.number text))
      [.token (.number text)] where
  trim := .int natural printed
  printed form p transparent asked := by
    have fits : (Tree.literal (.number text)).fits (.level p) = true :=
      Tree.fits_of_primary (by show 14 ≤ 15; omega) p
    rw [text_eq_plainText_of_plain p (by simp) transparent asked, fits]
    simp [Node.map, Shape.map, Node.plainText, printed]
  high := show 3 ≤ 15 by omega

/-- A variable starts with no sign. -/
theorem Operates.signsMerge_eq_false {e : Expr} {text : String} {p : Precedence} (h : Operates e t)
    (isLocal : e.isLocal = true) (printed : e.text scope .plain p = .ok text) (symbol : String) :
    signsMerge symbol text = false := by
  unfold Expr.isLocal at isLocal
  split at isLocal
  · cases h with
    | name identifier =>
      obtain ⟨first, rest, shape, starts, -⟩ := identifier.spelled
      have noSign : first ≠ '-' ∧ first ≠ '+' := by
        refine ⟨?_, ?_⟩ <;> · rintro rfl; revert starts; decide
      rw [Expr.text_node] at printed
      cases printed
      unfold signsMerge
      split
      · rename_i same
        rw [shape] at same
        cases same
        simp [noSign]
      · rfl
  · cases isLocal

theorem isTrimmed_unary {op : UnaryOp} (operates : Operates (e ()) x)
    (steps : op.isStep = true → (e ()).isLocal = true) (h : IsTrimmed scope (e ()) x xs) :
    ∃ pieces, IsTrimmed scope (.node ⟨.unary op e, ty⟩) (.prefixed op.symbol x) pieces := by
  have operand := h.trim.enclose .primary
  have printed := h.printed .plain .primary trivial (Or.inl rfl)
  have fits (p : Precedence) : (Tree.prefixed op.symbol x).fits (.level p) = true :=
    Tree.fits_of_primary (by show 14 ≤ 14; omega) p
  have whole {form : Form} (p : Precedence) (transparent : form.IsTransparent)
      (asked : form = .plain ∨ (Expr.node ⟨.unary op e, ty⟩).IsScalar) :
      (Expr.node ⟨.unary op e, ty⟩).text scope form p = unaryText op (Expr.operand scope e) :=
    text_eq_plainText_of_plain p (by simp) transparent asked
  have printed' : (Expr.operand scope e).plain .primary = .ok _ := printed
  cases merge : signsMerge op.symbol (render (enclose (x.fits (.level .primary)) xs)) with
  | true =>
    have computes : op.isStep = false := by
      cases step : op.isStep with
      | false => rfl
      | true =>
        rw [operates.signsMerge_eq_false (steps step) printed] at merge
        cases merge
    refine ⟨_, operand.signParen op computes merge, ?_, show 3 ≤ 14 by omega⟩
    intro form p transparent asked
    rw [whole p transparent asked, fits]
    simp [unaryText, printed', merge, String.append_assoc]
  | false =>
    refine ⟨_, operand.sign op merge, ?_, show 3 ≤ 14 by omega⟩
    intro form p transparent asked
    rw [whole p transparent asked, fits]
    simp [unaryText, printed', merge]

/-- Nothing of the kind is an element of a string. -/
theorem Operates.comparedChar?_eq (h : Operates (l ()) x) (right : TreeOperand) :
    comparedChar? (Expr.operand scope l) right = .ok none := by
  obtain ⟨n, atL, noIndex⟩ : ∃ n, l () = .node n ∧ ∀ a i, n.shape ≠ .binary .index a i := by
    generalize l () = e at h
    cases h with
    | binary _ noIndex => exact ⟨_, rfl, fun a i same => noIndex (by cases same; rfl)⟩
    | name | int | unary | select | contains => exact ⟨_, rfl, fun a i => nofun⟩
  have looked : (Expr.operand scope l).node? = .ok n := by
    simp [Operand.node?, Expr.operand, atL, Expr.node?]
  rw [comparedChar?, looked, ok_bind]
  split
  · rename_i indexes
    exact absurd indexes (noIndex _ _)
  · rfl

/-- What is no assignment binds at least as tight as a conditional. -/
theorem BinaryOp.select_le_level {op : BinaryOp} (computes : op.isAssign = false) :
    Precedence.select.level ≤ op.level.level := by
  cases op with
  | arith op | order op => cases op <;> decide
  | and | or | eq | notEq | index => decide
  | assign | update => cases computes

theorem isTrimmed_binary {op : BinaryOp} (computes : op.isAssign = false) (noIndex : op ≠ .index)
    (scalar : (l ()).IsScalar) (scalar' : (r ()).IsScalar) (operates : Operates (l ()) x)
    (h : IsTrimmed scope (l ()) x xs) (h' : IsTrimmed scope (r ()) y ys) :
    ∃ pieces, IsTrimmed scope (.node ⟨.binary op l r, ty⟩) (.binary op.symbol x y) pieces := by
  obtain ⟨atLevel, spells⟩ := BinaryOp.symbol_of_computes computes noIndex
  have rank := Tree.rank_binary atLevel x y
  have trim := Trim.binary atLevel spells (Token.isPlain_binary computes noIndex)
    (h.trim.enclose op.level) (h'.trim.enclose op.level.tighter)
  refine ⟨_, by rwa [rank], ?_, ?_⟩
  · intro form p transparent asked
    obtain ⟨leftTy, typedLeft, scalarLeft⟩ := scalar
    obtain ⟨rightTy, typedRight, scalarRight⟩ := scalar'
    rw [text_eq_plainText_of_plain p (by simp) transparent asked, render_enclose rank]
    have text := binaryText_eq_of_scalar (p := p) computes noIndex typedLeft scalarLeft typedRight
      scalarRight (operates.comparedChar?_eq _) (h.printed .plain op.level trivial (Or.inl rfl))
      (h'.printed .plain op.level.tighter trivial (Or.inl rfl))
    refine text.trans ?_
    simp [between, String.append_assoc]
  · rw [rank]
    exact BinaryOp.select_le_level computes

theorem isTrimmed_select (scalar : ty.IsScalar) (left : (l ()).IsScalar) (right : (r ()).IsScalar)
    (h : IsTrimmed scope (c ()) x xs) (h' : IsTrimmed scope (l ()) y ys)
    (h'' : IsTrimmed scope (r ()) z zs) :
    ∃ pieces, IsTrimmed scope (.node ⟨.select c l r, ty⟩) (.cond x y z) pieces := by
  have positive := h'.trim.enclose .statement
  have negative := h''.trim.enclose .assign
  have assign : Precedence.assign.level ≤ Precedence.select.level := by decide
  rw [Tree.fits_statement, enclose_true] at positive
  rw [Tree.fits_of_le_rank (Nat.le_trans assign h''.high), enclose_true] at negative
  refine ⟨_, (h.trim.enclose .condOr).cond positive negative, ?_, show 3 ≤ 3 by omega⟩
  intro form p transparent _
  obtain ⟨target, transparent', whole⟩ :=
    text_select scope p (c := c) (t := l) (e := r) scalar transparent
  have test : (Expr.operand scope c).plain .condOr = .ok _ :=
    h.printed .plain .condOr trivial (Or.inl rfl)
  have left' : (Expr.operand scope l).coerced target .select = .ok _ :=
    h'.printed (.coerced target) .select transparent' (Or.inr left)
  have right' : (Expr.operand scope r).coerced target .select = .ok _ :=
    h''.printed (.coerced target) .select transparent' (Or.inr right)
  rw [Tree.fits_of_le_rank h'.high, enclose_true] at left'
  rw [Tree.fits_of_le_rank h''.high, enclose_true] at right'
  rw [whole, render_enclose rfl]
  simp [selectText, test, left', right', String.append_assoc]

theorem isTrimmed_contains {o a : Unit → Expr} {string string' : Ty} {text part : String}
    (isString : string'.isString = true) (identifier : IsIdentifier text)
    (identifier' : IsIdentifier part)
    (object : o () = .node ⟨.symbol (.localName text), string⟩)
    (argument : a () = .node ⟨.symbol (.localName part), string'⟩) :
    IsTrimmed scope (.node ⟨.call o (.library .stringContains) [a], ty⟩)
      (.binary "!=" (.call (.member (.name [text]) "." ["find"]) (.snoc .nil (.name [part])))
        (.name ["std", "string", "npos"])) (searchPieces text part) := by
  have atLevel : ("!=", .equality) ∈ infixOps := by decide
  refine ⟨.contains identifier identifier', ?_, show 3 ≤ 9 by omega⟩
  intro form p transparent asked
  have named : Role.argument.Names string' := isString
  have receiver : (Expr.operand scope o).plain .primary = .ok text := by
    show (o ()).text scope .plain .primary = .ok text
    rw [object, Expr.text_node]
    rfl
  have searched : (Expr.operand scope a).coerced (.string .view) .argument = .ok part := by
    show (a ()).text scope (.coerced (.string .view)) .argument = .ok part
    have transparent : (Form.coerced (.string .view)).IsTransparent := Or.inr rfl
    rw [argument, text_eq_plainText scope .argument named.noWide (by simp) transparent]
    rfl
  have noLiteral : (Expr.operand scope o).literal? = .ok none := by
    show (o ()).literal? = .ok none
    rw [object]
    rfl
  rw [text_eq_plainText_of_plain p (by simp) transparent asked,
    render_enclose (Tree.rank_binary atLevel _ _), render_searchPieces]
  exact searchText_eq noLiteral receiver searched p

end Cases

/-- Every expression of the kind is printed without a spare parenthesis. -/
theorem Operates.exists_isTrimmed {scope : Scope} {e : Expr} {t : Tree} (h : Operates e t) :
    ∃ pieces, IsTrimmed scope e t pieces := by
  induction h with
  | name identifier => exact ⟨_, isTrimmed_name identifier⟩
  | int natural printed => exact ⟨_, isTrimmed_int natural printed⟩
  | unary steps operand ih =>
    obtain ⟨pieces, h⟩ := ih
    exact isTrimmed_unary operand steps h
  | binary computes noIndex scalar scalar' left _ ih ih' =>
    obtain ⟨pieces, h⟩ := ih
    obtain ⟨pieces', h'⟩ := ih'
    exact isTrimmed_binary computes noIndex scalar scalar' left h h'
  | select scalar left right _ _ _ ih ih' ih'' =>
    obtain ⟨pieces, h⟩ := ih
    obtain ⟨pieces', h'⟩ := ih'
    obtain ⟨pieces'', h''⟩ := ih''
    exact isTrimmed_select scalar left right h h' h''
  | contains _ isString identifier identifier' object argument =>
    exact ⟨_, isTrimmed_contains isString identifier identifier' object argument⟩

/-- An expression of variables, numbers, operators, conditionals and searches is printed for any
position, and is read there to its tree. Without a pair of parentheses that match it is not read to
the tree any more; the pair around the whole text, if there is one, is for the position, and any
other pair is needed wherever the text stands. -/
theorem every_parenthesis_is_needed (scope : Scope) {e : Expr} {t : Tree} (h : Operates e t)
    (p : Precedence) :
    ∃ text, e.text scope .plain p = .ok text ∧ ReadsAt p text t ∧
      ∀ a m b, text = a ++ "(" ++ m ++ ")" ++ b → closesText 0 m.toList = true →
        ¬ ReadsAt p (a ++ m ++ b) t ∧ (a ≠ "" ∨ b ≠ "" → ¬ Reads (a ++ m ++ b) t) := by
  obtain ⟨pieces, trimmed⟩ : ∃ pieces, IsTrimmed scope e t pieces := h.exists_isTrimmed
  have operand := trimmed.trim.enclose p
  refine ⟨_, trimmed.printed .plain p trivial (Or.inl rfl),
    ⟨_, operand.phrase.spells, operand.derives⟩, fun a m b shape matched => ?_⟩
  have derives := trimmed.trim.derives
  have frugal : Frugal none 0 t.demand pieces := by simpa using trimmed.trim.frugal
  have nonempty : t.demand ≠ [] := derives.demand_ne_nil (derives.ne_nil t.rank_ne_items)
  exact frugal.pair_needed nonempty trimmed.trim.arePlain derives.closesParens shape matched

section Samples

/-- A variable with two signs, less the difference of a variable and five. -/
def signedDifference : Expr :=
  .node ⟨.binary (.arith .sub)
    (fun _ => .node ⟨.unary .neg
      (fun _ => .node ⟨.unary .neg (fun _ => localInt "x"), .i32⟩), .i32⟩)
    (fun _ => .node ⟨.binary (.arith .sub) (fun _ => localInt "y")
      (fun _ => .node ⟨.literal (.int 5), .i32⟩), .i32⟩), .i32⟩

/-- The tree of the difference. -/
def signedDifferenceTree : Tree :=
  .binary "-" (.prefixed "-" (.prefixed "-" (.name ["x"])))
    (.binary "-" (.name ["y"]) (.literal (.number "5")))

theorem every_parenthesis_is_needed_signedDifference :
    signedDifference.text ⟨#[], #[]⟩ .plain .mul = .ok "(-(-x) - (y - 5))" ∧
      ¬ Reads "(--x - (y - 5))" signedDifferenceTree ∧
      ¬ Reads "(-(-x) - y - 5)" signedDifferenceTree ∧
      ¬ ReadsAt .mul "-(-x) - (y - 5)" signedDifferenceTree := by
  have x : Operates (localInt "x") (.name ["x"]) := .name (by decide)
  have y : Operates (localInt "y") (.name ["y"]) := .name (by decide)
  have five : Operates (.node ⟨.literal (.int 5), .i32⟩) (.literal (.number "5")) :=
    .int (by decide) rfl
  have scalar (shape : Shape (Unit → Expr)) : (Expr.node ⟨shape, .i32⟩).IsScalar :=
    ⟨.i32, rfl, Or.inl rfl⟩
  have minus {e : Unit → Expr} {t : Tree} (h : Operates (e ()) t) :
      Operates (.node ⟨.unary .neg e, .i32⟩) (.prefixed "-" t) := .unary nofun h
  have difference {l r : Unit → Expr} {t u : Tree} (left : (l ()).IsScalar)
      (right : (r ()).IsScalar) (h : Operates (l ()) t) (h' : Operates (r ()) u) :
      Operates (.node ⟨.binary (.arith .sub) l r, .i32⟩) (.binary "-" t u) :=
    .binary rfl nofun left right h h'
  have operates : Operates signedDifference signedDifferenceTree :=
    difference (scalar _) (scalar _) (minus (minus x)) (difference (scalar _) (scalar _) y five)
  have shown : signedDifference.text ⟨#[], #[]⟩ .plain .mul = .ok "(-(-x) - (y - 5))" := rfl
  obtain ⟨text, printed, -, needed⟩ := every_parenthesis_is_needed ⟨#[], #[]⟩ operates .mul
  rw [shown] at printed
  cases printed
  exact ⟨shown,
    (needed "(-" "-x" " - (y - 5))" (by decide) (by decide)).2 (Or.inl (by decide)),
    (needed "(-(-x) - " "y - 5" ")" (by decide) (by decide)).2 (Or.inl (by decide)),
    (needed "" "-(-x) - (y - 5)" "" (by decide) (by decide)).1⟩

end Samples

end CppPrinter
