import CppPrinter.Proofs.Expr.Tree
import CppPrinter.Proofs.Result
import CppPrinter.Proofs.Expr.Rule
import CppPrinter.Proofs.Reading.Leaf

/-!
# Operators over operands that are read

Each rule of printing makes a text that is read from operands that are read (`Operand.IsRead`). Of
an operand it matters whether its text starts with a sign (`Expr.leads`), whether it ends in a number
(`Expr.endsNumber`), and whether it is an assignment or a conditional (`Expr.isLoose`); all three
are read off the expression.
-/

namespace CppPrinter

/-- The text of the call starts with its object, and nothing is put around the call. -/
def MethodRef.keepsObject : MethodRef → Bool
  | user .. => true
  | library .stringStartsWith | library .stringEndsWith | library .stringSubstring => true
  | _ => false

/-- The text of the expression starts with a sign, even in the tightest position. -/
def Expr.leads : Expr → Bool
  | .node ⟨.literal value, _⟩ => value.isNegative
  | .node ⟨.unary .., _⟩ => true
  | .node ⟨.step _ e, _⟩ => (e ()).leads
  | .node ⟨.binary .index l _, _⟩ => (l ()).leads
  | .node ⟨.member object _, _⟩ => (object ()).leads
  | .node ⟨.call object method _, _⟩ => method.keepsObject && (object ()).leads
  | _ => false

/-- The expression is a number, signs in front of it included. -/
def Expr.endsNumber : Expr → Bool
  | .node ⟨.literal value, _⟩ => value.isNumber
  | .node ⟨.unary _ e, _⟩ => (e ()).endsNumber
  | _ => false

/-- The expression is an assignment or a conditional. -/
def Expr.isLoose : Expr → Bool
  | .node ⟨.binary op _ _, _⟩ => op.isAssign
  | .node ⟨.select .., _⟩ => true
  | _ => false

/-- The forms that go by the position they are printed for. A written cast does not. -/
def Form.IsPositioned : Form → Prop
  | cast _ => False
  | _ => True

/-- Every text of the operand is read, and what is put around it depends on the expression alone. -/
structure Operand.IsRead (x : TreeOperand) : Prop where
  literal : ∀ {value p}, x.literal? = .ok (some value) → x.plain p = value.text ∧
    (x.expr ()).leads = value.isNegative ∧ (x.expr ()).endsNumber = value.isNumber
  plain : ∀ {p text}, x.plain p = .ok text →
    IsPrinted (x.expr ()).leads (x.expr ()).endsNumber (x.expr ()).isLoose p text
  form : ∀ {form p text}, form.IsPositioned → x.text form p = .ok text → IsPhraseAt p text
  cast : ∀ {int p text}, x.text (.cast (.integer int)) p = .ok text → IsOperand false false text

namespace Operand.IsRead

variable {x : TreeOperand} {p : Precedence} {text : String}

theorem primary (h : x.IsRead) (printed : x.plain .primary = .ok text) :
    IsOperand (x.expr ()).leads (x.expr ()).endsNumber text :=
  (h.plain printed).isOperand

theorem phrase (h : x.IsRead) (printed : x.plain p = .ok text) : IsPhraseAt p text :=
  (h.plain printed).isPhraseAt

theorem coerced (h : x.IsRead) {target : Ty} (printed : x.coerced target p = .ok text) :
    IsPhraseAt p text := by
  have positioned : (Form.coerced target).IsPositioned := trivial
  exact h.form positioned printed

end Operand.IsRead

/-- What an operator makes of two operands, fit for a position. -/
theorem IsPhraseAt.leveled {q : Precedence} {symbol left right : String}
    (atLevel : (symbol, q) ∈ infixOps) (spaced : Spells (" " ++ symbol) [.mark symbol])
    (low : Precedence.condOr.level ≤ q.level) (high : q ≠ .primary) (h : IsPhraseAt q left)
    (h' : IsPhraseAt q.tighter right) (p : Precedence) :
    IsPrinted false false false p (q.parenthesize p (between left symbol right)) := by
  obtain ⟨ls, l, phrase, derives⟩ := h
  obtain ⟨rs, r, phrase', derives'⟩ := h'
  exact .leveled low high (phrase.between spaced phrase') (.binary atLevel derives derives')

section Rules

variable {scope : Scope} {x y z : TreeOperand} {p : Precedence} {text : String}

theorem unaryText_isOperand {op : UnaryOp} (h : x.IsRead) (printed : unaryText op x = .ok text) :
    IsOperand true (x.expr ()).endsNumber text := by
  rw [unaryText, bind_eq_ok_iff] at printed
  obtain ⟨inner, printedInner, made⟩ := printed
  have whole := (h.primary printedInner).sign op
  split at made
  · rename_i merge
    cases made
    rwa [if_pos merge] at whole
  · rename_i apart
    cases made
    rwa [if_neg apart] at whole

theorem stepText_isOperand {op : StepOp} (h : x.IsRead) (printed : stepText op x = .ok text) :
    IsOperand (x.expr ()).leads false text := by
  obtain ⟨inner, printedInner, rfl⟩ : ∃ inner, x.plain .primary = .ok inner ∧
      inner ++ op.symbol = text := by simpa [stepText] using printed
  exact (h.primary printedInner).behind (.step op) False.elim

theorem indexText_isOperand (h : x.IsRead) (h' : y.IsRead)
    (printed : indexText x y = .ok text) : IsOperand (x.expr ()).leads false text := by
  obtain ⟨array, printedArray, position, printedPosition, rfl⟩ : ∃ array,
      x.plain .primary = .ok array ∧ ∃ position, y.plain .statement = .ok position ∧
        array ++ "[" ++ position ++ "]" = text := by simpa [indexText] using printed
  obtain ⟨is, i, phrase, derives⟩ := h'.phrase printedPosition
  have whole := (h.primary printedArray).behind (.index phrase.spells derives) False.elim
  simpa [String.append_assoc] using whole

theorem leftText_isPrinted {q : Precedence} {symbol : String} (atLevel : (symbol, q) ∈ infixOps)
    (spaced : Spells (" " ++ symbol) [.mark symbol]) (low : Precedence.condOr.level ≤ q.level)
    (high : q ≠ .primary) (h : x.IsRead) (h' : y.IsRead)
    (printed : leftText q symbol x y p = .ok text) : IsPrinted false false false p text := by
  obtain ⟨left, printedLeft, right, printedRight, rfl⟩ : ∃ left, x.plain q = .ok left ∧
      ∃ right, y.plain q.tighter = .ok right ∧
        q.parenthesize p (between left symbol right) = text := by simpa [leftText] using printed
  exact (h.phrase printedLeft).leveled atLevel spaced low high (h'.phrase printedRight) p

theorem charLiteral_isPhraseAt (c : Char) (p : Precedence) : IsPhraseAt p (charLiteral c) := by
  have shape : (charLiteral c).toList = delimited '\x27' [c] ++ [] := by simp [charLiteral]
  obtain ⟨contents, phrase⟩ := Phrase.delimited (by decide) [c] (List.forall_mem_nil _) shape
  exact ⟨_, _, phrase, (Derives.literal rfl).ofTightAt p⟩

theorem comparisonText_isPrinted {q : Precedence} {symbol : String}
    (atLevel : (symbol, q) ∈ infixOps) (spaced : Spells (" " ++ symbol) [.mark symbol])
    (low : Precedence.condOr.level ≤ q.level) (high : q ≠ .primary) (h : x.IsRead) (h' : y.IsRead)
    (printed : comparisonText q symbol x y p = .ok text) : IsPrinted false false false p text := by
  rw [comparisonText, bind_eq_ok_iff] at printed
  obtain ⟨char?, -, printed⟩ := printed
  cases char? with
  | none =>
    obtain ⟨right, printedRight, left, printedLeft, rfl⟩ : ∃ right,
        y.plain q.tighter = .ok right ∧ ∃ left, x.plain q = .ok left ∧
          q.parenthesize p (between left symbol right) = text := by simpa using printed
    exact (h.phrase printedLeft).leveled atLevel spaced low high (h'.phrase printedRight) p
  | some c =>
    obtain ⟨left, printedLeft, rfl⟩ : ∃ left, x.plain q = .ok left ∧
        q.parenthesize p (between left symbol (charLiteral c)) = text := by simpa using printed
    exact (h.phrase printedLeft).leveled atLevel spaced low high (charLiteral_isPhraseAt c _) p

theorem equalityText_isPrinted {symbol : String} (atLevel : (symbol, .equality) ∈ infixOps)
    (spaced : Spells (" " ++ symbol) [.mark symbol]) (h : x.IsRead) (h' : y.IsRead)
    (printed : equalityText scope symbol x y p = .ok text) :
    IsPrinted false false false p text := by
  simp only [equalityText, bind_eq_ok_iff] at printed
  obtain ⟨leftTy, -, rightTy, -, common?, -, printed⟩ := printed
  cases common? with
  | none => exact comparisonText_isPrinted atLevel spaced (by decide) (by decide) h h' printed
  | some common =>
    obtain ⟨left, printedLeft, right, printedRight, rfl⟩ : ∃ left,
        x.coerced (.classPtr .readOnly common) .equality = .ok left ∧ ∃ right,
          y.coerced (.classPtr .readOnly common) .rel = .ok right ∧
            Precedence.equality.parenthesize p (between left symbol right) = text := by
      simpa using printed
    exact (h.coerced printedLeft).leveled atLevel spaced (by decide) (by decide)
      (h'.coerced printedRight) p

theorem IsPhraseAt.assign (h : IsPhraseAt .argument text) : IsPhraseAt .assign text := by
  obtain ⟨ts, t, phrase, derives⟩ := h
  exact ⟨ts, t, phrase, derives.assign_of_argument⟩

/-- An assignment, whatever its left side is. -/
theorem isPrinted_assign {symbol left right : String} (isAssign : symbol ∈ assignOps)
    (spaced : Spells (" " ++ symbol) [.mark symbol]) (h : IsPhraseAt .assign left)
    (h' : IsPhraseAt .assign right) (p : Precedence) :
    IsPrinted false false true p (Precedence.assign.parenthesize p (between left symbol right)) := by
  obtain ⟨ls, l, phrase, derives⟩ := h
  obtain ⟨rs, r, phrase', derives'⟩ := h'
  obtain ⟨u, groups⟩ := Derives.reassign isAssign derives' derives
  exact .group (Or.inl rfl) (phrase.between spaced phrase') groups.derives groups

theorem updateText_isPrinted {op : ArithOp} (h : x.IsRead) (h' : y.IsRead)
    (printed : updateText op x y p = .ok text) : IsPrinted false false true p text := by
  obtain ⟨left, printedLeft, right, printedRight, rfl⟩ : ∃ left, x.plain .assign = .ok left ∧
      ∃ right, y.plain .argument = .ok right ∧
        Precedence.assign.parenthesize p (between left (op.symbol ++ "=") right) = text := by
    simpa [updateText] using printed
  have isAssign : op.symbol ++ "=" ∈ assignOps := by cases op <;> decide
  have spaced : Spells (" " ++ (op.symbol ++ "=")) [.mark (op.symbol ++ "=")] := by
    cases op <;> decide
  exact isPrinted_assign isAssign spaced (h.phrase printedLeft) (h'.phrase printedRight).assign p

theorem assignedText_isPhraseAt (h : y.IsRead) (printed : assignedText x y = .ok text) :
    IsPhraseAt .assign text :=
  assignedText_gives (fun _ => h.phrase) (fun _ _ cast => (h.cast cast).isPhraseAt .assign)
    (fun _ _ converted => (h.coerced converted).assign) text printed

theorem assignText_isPrinted (h : x.IsRead) (h' : y.IsRead)
    (printed : assignText x y p = .ok text) : IsPrinted false false true p text := by
  obtain ⟨left, printedLeft, right, printedRight, rfl⟩ : ∃ left, x.plain .assign = .ok left ∧
      ∃ right, assignedText x y = .ok right ∧
        Precedence.assign.parenthesize p (between left "=" right) = text := by
    simpa [assignText] using printed
  exact isPrinted_assign (by decide) (by decide) (h.phrase printedLeft)
    (assignedText_isPhraseAt h' printedRight) p

theorem selectText_isPrinted {target : Ty} (h : x.IsRead) (h' : y.IsRead) (h'' : z.IsRead)
    (printed : selectText target x y z p = .ok text) : IsPrinted false false true p text := by
  obtain ⟨test, printedTest, positive, printedPositive, negative, printedNegative, rfl⟩ :
      ∃ test, x.plain .condOr = .ok test ∧ ∃ positive, y.coerced target .select = .ok positive ∧
        ∃ negative, z.coerced target .select = .ok negative ∧
          Precedence.select.parenthesize p (test ++ " ? " ++ positive ++ " : " ++ negative) =
            text := by simpa [selectText] using printed
  obtain ⟨cs, c, phrase, derives⟩ := h.phrase printedTest
  obtain ⟨ts, t, phrase', derives'⟩ := h'.coerced printedPositive
  obtain ⟨es, e, phrase'', derives''⟩ := h''.coerced printedNegative
  have positiveAt : Derives (.level .statement) ts t := .loosen (by decide) derives'
  have negativeAt : Derives (.level .assign) es e := .loosen (by decide) derives''
  exact .group (Or.inr rfl) (phrase.cond phrase' phrase'') (.cond derives positiveAt negativeAt)
    (.cond derives positiveAt negativeAt)

end Rules

end CppPrinter
