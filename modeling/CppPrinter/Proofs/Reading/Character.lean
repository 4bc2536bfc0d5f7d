import CppPrinter.Proofs.Reading.Decoding
import CppPrinter.Proofs.Reading.Integer

/-!
# Comparisons with one character

An element of a string is one character, and so is a literal that stands for one: a string of that
character alone, or the character's code (`Literal.plainChar?_eq_some_iff`). Where the two are compared, the
element is printed as it stands, and the literal as a character literal that is read back as the character,
provided the literal is the right operand. On the left the literal keeps its own text, which is read as a
string or as a number (`character_compared_iff`).
-/

namespace CppPrinter

/-! ### Literals of one character -/

theorem isPlainCharCode_lt {code : Int} (plain : isPlainCharCode code = true) : 0 ≤ code ∧ code < 0x80 := by
  simp only [isPlainCharCode, Bool.or_eq_true, Bool.and_eq_true, decide_eq_true_eq] at plain
  omega

/-- A literal stands for a character if it is a string of this character alone, or the character's code. -/
theorem Literal.plainChar?_eq_some_iff {value : Literal} {c : Char} :
    value.plainChar? = some c ↔ isPlainCharCode c.toNat = true ∧
      (value = .string (String.ofList [c]) ∨ ∃ code, value = .int code ∧ code.toInt = c.toNat) := by
  cases value with
  | string s =>
    constructor
    · intro isChar
      rw [plainChar?] at isChar
      split at isChar
      · rename_i d single
        obtain ⟨plain, rfl⟩ := Option.ite_none_right_eq_some.1 isChar |>.imp_right Option.some.inj
        exact ⟨plain, .inl (by rw [← single, String.ofList_toList])⟩
      · cases isChar
    · rintro ⟨plain, same | ⟨code, same, -⟩⟩
      · cases same
        simp [plainChar?, plain]
      · cases same
  | int v =>
    constructor
    · intro isChar
      simp only [plainChar?, Option.ite_none_right_eq_some, Option.some.injEq] at isChar
      obtain ⟨plain, rfl⟩ := isChar
      obtain ⟨nonneg, small⟩ := isPlainCharCode_lt plain
      have code : ((Char.ofNat v.toInt.toNat).toNat : Int) = v.toInt := by
        have ascii : ∀ n < 0x80, (Char.ofNat n).toNat = n := by decide
        rw [ascii _ (by omega), Int.toNat_of_nonneg nonneg]
      exact ⟨by rwa [code], .inr ⟨v, rfl, code.symm⟩⟩
    · rintro ⟨plain, same | ⟨code, same, isCode⟩⟩
      · cases same
      · cases same
        simp [plainChar?, isCode, plain]
  | _ => simp [plainChar?]

/-- By itself, a literal that stands for a character is not printed as a character literal. -/
theorem Literal.text_of_plainChar? {value : Literal} {c : Char} (isChar : value.plainChar? = some c) :
    ∃ text, value.text = .ok text ∧ ∀ cs rest, readLiteral? text.toList ≠ some ('\x27', cs, rest) := by
  obtain ⟨plain, rfl | ⟨code, rfl, isCode⟩⟩ := plainChar?_eq_some_iff.1 isChar
  · refine ⟨_, rfl, fun cs rest => ?_⟩
    have read := readLiteral?_delimited (.inl rfl) [c] []
    rw [List.append_nil] at read
    rw [stringLiteral, String.toList_ofList, String.toList_ofList, read]
    rintro ⟨⟩
  · refine ⟨_, text_int code, fun cs rest => ?_⟩
    obtain ⟨first, digits, shape, digit, -⟩ := repr_digits code.toInt.toNat
    have unquoted : ¬ (first = '\x22' ∨ first = '\x27') := by
      rintro (rfl | rfl) <;> cases digit
    rw [String.toList_append, toString_of_nonneg (by omega), shape, List.cons_append, readLiteral?,
      if_neg unquoted]
    rintro ⟨⟩

theorem Node.plainChar?_eq_some_iff {ρ : Type} {n : Node ρ} {c : Char} :
    n.plainChar? = some c ↔ ∃ value, n.shape = .literal value ∧ value.plainChar? = some c := by
  obtain ⟨shape, ty⟩ := n
  cases shape <;> simp [plainChar?, literal?]

/-! ### Comparisons -/

/-- The level and the symbol of a comparison. -/
def BinaryOp.comparison? : BinaryOp → Option (Precedence × String)
  | .order op => some (.rel, op.symbol)
  | .eq => some (.equality, "==")
  | .notEq => some (.equality, "!=")
  | _ => none

/-- The node is an element of a string. -/
def Node.IsStringElement (n : Node (Unit → Expr)) : Prop :=
  ∃ string position owner, n.shape = .binary .index string position ∧ string () = .node owner ∧
    owner.ty.isString = true

/-- Neither operand of an equality is a class pointer that takes the other one. -/
def BinaryOp.ComparesValues (op : BinaryOp) (scope : Scope) (left right : Ty) : Prop :=
  op = .eq ∨ op = .notEq →
    scope.accepts left right = .ok false ∧ scope.accepts right left = .ok false

/-- A comparison of an element of a string with a literal, which is the left operand or the right one. -/
def comparisonWith (literalFirst : Bool) (op : BinaryOp) (element literal : Node (Unit → Expr)) (ty : Ty) :
    Expr :=
  .node ⟨.binary op (fun _ => .node (if literalFirst then literal else element))
    (fun _ => .node (if literalFirst then element else literal)), ty⟩

/-- The text of such a comparison. -/
def betweenWith (literalFirst : Bool) (symbol element literal : String) : String :=
  if literalFirst then between literal symbol element else between element symbol literal

section Comparison

variable {scope : Scope} {op : BinaryOp} {level : Precedence} {symbol : String}
  {element literal left right : Node (Unit → Expr)} {c : Char} {ty : Ty}

/-- A comparison of values is one that looks for a character, whatever the operator. -/
theorem Expr.text_comparison (compares : op.comparison? = some (level, symbol))
    (values : op.ComparesValues scope left.ty right.ty) (p : Precedence) :
    (Expr.node ⟨.binary op (fun _ => .node left) (fun _ => .node right), ty⟩).text scope .plain p =
      comparisonText level symbol (Expr.operand scope fun _ => .node left)
        (Expr.operand scope fun _ => .node right) p := by
  have equality (isEquality : op = .eq ∨ op = .notEq) (s : String) :
      equalityText scope s (Expr.operand scope fun _ => .node left)
        (Expr.operand scope fun _ => .node right) p =
      comparisonText .equality s (Expr.operand scope fun _ => .node left)
        (Expr.operand scope fun _ => .node right) p := by
    obtain ⟨there, back⟩ := values isEquality
    have apart : commonClass? scope left.ty right.ty = .ok none := by
      simp [commonClass?, there, back]
    have leftTy : (Expr.operand scope fun _ => .node left).ty? = .ok left.ty := rfl
    have rightTy : (Expr.operand scope fun _ => .node right).ty? = .ok right.ty := rfl
    rw [equalityText, leftTy, ok_bind, rightTy, ok_bind, apart, ok_bind]
  rw [Expr.text_node]
  cases op with
  | order op => cases compares; rfl
  | eq => cases compares; exact equality (.inl rfl) "=="
  | notEq => cases compares; exact equality (.inr rfl) "!="
  | _ => cases compares

/-- What a comparison of values looks at, where the left side is an element of a string. -/
theorem comparedChar?_of_element (isElement : element.IsStringElement) :
    comparedChar? (Expr.operand scope fun _ => .node element) (Expr.operand scope fun _ => .node right) =
      .ok right.plainChar? := by
  obtain ⟨string, position, owner, shape, isOwner, isString⟩ := isElement
  have looked : (Expr.operand scope fun _ => .node element).node? = .ok element := rfl
  have looked' : (Expr.operand scope fun _ => .node right).node? = .ok right := rfl
  have ownerTy : Viewable.ty? string = .ok owner.ty := by
    rw [Expr.viewable_ty?, isOwner]
    rfl
  rw [comparedChar?, looked, ok_bind, shape]
  dsimp only
  rw [ownerTy, ok_bind, if_pos isString, looked', ok_bind]
  rfl

/-- An element of a string is closed by its brackets, so it is the same text in every position. -/
theorem Expr.text_element (isElement : element.IsStringElement) (p q : Precedence) :
    (Expr.node element).text scope .plain p = (Expr.node element).text scope .plain q := by
  obtain ⟨string, position, owner, shape, -, -⟩ := isElement
  obtain ⟨shape', ty⟩ := element
  obtain rfl : shape' = _ := shape
  rw [Expr.text_node]
  rfl

/-- A literal on the left is no element of a string. -/
theorem comparedChar?_of_literal {value : Literal} (isLiteral : left.shape = .literal value) :
    comparedChar? (Expr.operand scope fun _ => .node left) (Expr.operand scope fun _ => .node right) =
      .ok none := by
  have looked : (Expr.operand scope fun _ => .node left).node? = .ok left := rfl
  rw [comparedChar?, looked, ok_bind, isLiteral]
  rfl

/-- Where an element of a string is compared with a literal that stands for a character, the element is
printed as it stands, and the literal is a literal of that character exactly when it is the right operand.
As the left operand it keeps its own text, which is no character literal. -/
theorem character_compared_iff (isElement : element.IsStringElement) (isChar : literal.plainChar? = some c)
    (compares : op.comparison? = some (level, symbol))
    (values : op.ComparesValues scope element.ty literal.ty) (literalFirst : Bool) (ty : Ty)
    (p : Precedence) :
    (literal.shape = .literal (.string (String.ofList [c])) ∨
      ∃ code, literal.shape = .literal (.int code) ∧ code.toInt = c.toNat) ∧
    ∃ shown : String,
      (comparisonWith literalFirst op element literal ty).text scope .plain p = (do
        let e ← (Expr.node element).text scope .plain .primary
        return level.parenthesize p (betweenWith literalFirst symbol e shown)) ∧
      (readLiteral? shown.toList = some ('\x27', [c], []) ↔ literalFirst = false) ∧
      (literalFirst = true → (Expr.node literal).text scope .plain .primary = .ok shown ∧
        ∀ cs rest, readLiteral? shown.toList ≠ some ('\x27', cs, rest)) := by
  obtain ⟨value, isLiteral, isPlain⟩ := Node.plainChar?_eq_some_iff.1 isChar
  obtain ⟨-, standsFor⟩ := Literal.plainChar?_eq_some_iff.1 isPlain
  refine ⟨by simpa only [isLiteral, Shape.literal.injEq] using standsFor, ?_⟩
  cases literalFirst with
  | false =>
    have read := readLiteral?_delimited (.inr rfl) [c] []
    refine ⟨charLiteral c, ?_, ?_, by rintro ⟨⟩⟩
    · rw [comparisonWith, if_neg Bool.false_ne_true, if_neg Bool.false_ne_true,
        Expr.text_comparison compares values, comparisonText, comparedChar?_of_element isElement, isChar,
        ok_bind, Expr.text_element isElement .primary level]
      rfl
    · rw [List.append_nil] at read
      rw [charLiteral, String.toList_ofList, read]
      simp only
  | true =>
    obtain ⟨text, printed, unquoted⟩ := Literal.text_of_plainChar? isPlain
    have plainText (q : Precedence) : (Expr.node literal).text scope .plain q = .ok text := by
      obtain ⟨shape, ty⟩ := literal
      obtain rfl : shape = _ := isLiteral
      exact printed
    refine ⟨text, ?_, ⟨fun read => absurd read (unquoted _ _), by rintro ⟨⟩⟩,
      fun _ => ⟨plainText _, unquoted⟩⟩
    have values' : op.ComparesValues scope literal.ty element.ty := fun isEquality =>
      (values isEquality).symm
    have plainLeft : (Expr.operand scope fun _ => .node literal).plain level = .ok text := plainText level
    rw [comparisonWith, if_pos rfl, if_pos rfl, Expr.text_comparison compares values', comparisonText,
      comparedChar?_of_literal isLiteral, ok_bind, plainLeft,
      Expr.text_element isElement .primary level.tighter]
    rfl

end Comparison

/-- A character of a string. -/
def characterAt : Node (Unit → Expr) :=
  ⟨.binary .index (fun _ => .node ⟨.symbol (.localName "s"), .string .view⟩)
    (fun _ => .node ⟨.symbol (.localName "i"), .i32⟩), .integer ⟨.w16, false⟩⟩

theorem isStringElement_characterAt : characterAt.IsStringElement :=
  ⟨_, _, _, rfl, rfl, rfl⟩

/-- A string of one character. -/
def letterA : Node (Unit → Expr) := ⟨.literal (.string "a"), .string .view⟩

theorem character_compared_iff_right :
    characterAt.IsStringElement ∧ letterA.plainChar? = some 'a' ∧
    BinaryOp.eq.comparison? = some (.equality, "==") ∧
    BinaryOp.eq.ComparesValues ⟨#[], #[]⟩ characterAt.ty letterA.ty ∧
    (comparisonWith false .eq characterAt letterA .bool).text ⟨#[], #[]⟩ .plain .statement =
      .ok "s[i] == 'a'" ∧
    ∃ shown, betweenWith false "==" "s[i]" shown = "s[i] == 'a'" ∧
      readLiteral? shown.toList = some ('\x27', ['a'], []) := by
  have isChar : letterA.plainChar? = some 'a' := by decide
  have values : BinaryOp.eq.ComparesValues ⟨#[], #[]⟩ characterAt.ty letterA.ty := fun _ => ⟨rfl, rfl⟩
  obtain ⟨-, shown, text, read, -⟩ := character_compared_iff isStringElement_characterAt isChar rfl
    values false .bool .statement
  exact ⟨isStringElement_characterAt, isChar, rfl, values, rfl, shown, (Except.ok.inj text).symm,
    read.2 rfl⟩

/-- On the left of the same comparison stands a string. -/
theorem letter_left_of_character_is_string :
    characterAt.IsStringElement ∧ letterA.plainChar? = some 'a' ∧
    BinaryOp.eq.ComparesValues ⟨#[], #[]⟩ characterAt.ty letterA.ty ∧
    (comparisonWith true .eq characterAt letterA .bool).text ⟨#[], #[]⟩ .plain .statement =
      .ok "\"a\" == s[i]" ∧
    readLiteral? "\"a\"".toList = some ('\x22', ['a'], []) :=
  ⟨isStringElement_characterAt, by decide, fun _ => ⟨rfl, rfl⟩, rfl, by decide +kernel⟩

end CppPrinter
