import CppPrinter.Precedence
import CppPrinter.Proofs.Reading.Token

/-!
# The grammar of expressions

What a list of tokens means as an expression is a tree (`Tree`), and `Derives` is the grammar that
gives it. Operators between two operands stand at the levels of `Precedence` and group to the left,
the conditional and the assignments to the right, an operator before its operand binds looser than
any form behind an operand, and those group from the left. Parentheses and the tokens of a tree
that are always the same leave no trace in it.

The grammar takes a little more than the language: any operand may be followed by `::` and a name,
and a list in braces is an operand. It leaves out what is never printed, such as casts without a
keyword.
-/

namespace CppPrinter

/-- An expression as it is read. -/
inductive Tree where
  /-- A name, qualified or not, or a word that stands for a value. -/
  | name (path : List String)
  /-- A number, a character or a string. -/
  | literal (token : Token)
  | prefixed (op : String) (operand : Tree)
  | postfixed (op : String) (operand : Tree)
  | binary (op : String) (left right : Tree)
  | assign (op : String) (left right : Tree)
  | cond (test positive negative : Tree)
  | index (array position : Tree)
  /-- The member of an object, by a name that may be qualified. -/
  | member (object : Tree) (op : String) (path : List String)
  /-- What is no name and no member, followed by `::` and a name. -/
  | scope (outer : Tree) (name : String)
  | call (callee arguments : Tree)
  | braces (items : Tree)
  | cast (kind : String) (ty : List Token) (operand : Tree)
  /-- A function template with its type argument. -/
  | template (path : List String) (ty : List Token)
  /-- No item of a list. -/
  | nil
  /-- The items of a list and one more. -/
  | snoc (front item : Tree)
  deriving DecidableEq, Repr

namespace Tree

/-- The tree followed by `::` and a name. -/
def qualify (name : String) : Tree → Tree
  | .name path => .name (path ++ [name])
  | member object op path => member object op (path ++ [name])
  | t => scope t name

end Tree

/-- The operators between two operands, with their levels. -/
def infixOps : List (String × Precedence) := [
  ("*", .mul), ("/", .mul), ("%", .mul), ("+", .add), ("-", .add), ("<<", .shift), (">>", .shift),
  ("<", .rel), ("<=", .rel), (">", .rel), (">=", .rel), ("==", .equality), ("!=", .equality),
  ("&", .and), ("^", .xor), ("|", .or), ("&&", .condAnd), ("||", .condOr), (",", .statement)]

/-- The assignments, alone and combined with an operator. -/
def assignOps : List String :=
  ["=", "*=", "/=", "%=", "+=", "-=", "<<=", ">>=", "&=", "^=", "|="]

/-- The operators before an operand. -/
def prefixOps : List String := ["-", "!", "~", "++", "--", "&", "*", "+"]

/-- The operators behind an operand. -/
def postfixOps : List String := ["++", "--"]

/-- The operators that reach a member. -/
def memberOps : List String := [".", "->"]

/-- The keywords of casts, which take a type in angle brackets. -/
def castWords : List String := ["static_cast", "reinterpret_cast"]

/-- The keywords that are operands. -/
def valueWords : List String := ["this", "true", "false", "nullptr"]

/-- The word stands for something by itself. -/
def namesOperand (word : String) : Bool := decide (word ∉ keywords ∨ word ∈ valueWords)

theorem IsIdentifier.namesOperand {name : String} (h : IsIdentifier name) :
    namesOperand name = true := by
  simp [CppPrinter.namesOperand, h.free]

/-- The function template that is printed with a type argument. -/
def templatePath : List String := ["std", "make_shared"]

/-- The token is a whole operand. -/
def Token.isLiteral : Token → Bool
  | number _ | literal .. => true
  | _ => false

/-- The token can stand in a type. -/
def Token.inType : Token → Bool
  | word _ | number _ => true
  | mark text => decide (text ∈ ["::", ",", "*", "[", "]"])
  | literal .. => false

/-- The tokens close so many brackets and all that they open themselves, and the others among them
are allowed there. -/
def closesBrackets (opening closing : Token) (allowed : Token → Bool) : Nat → List Token → Bool
  | depth, [] => depth == 0
  | depth, t :: rest =>
    if t = opening then closesBrackets opening closing allowed (depth + 1) rest
    else if t = closing then
      0 < depth && closesBrackets opening closing allowed (depth - 1) rest
    else allowed t && closesBrackets opening closing allowed depth rest

/-- What closes its brackets closes them inside others, and leaves the rest to be looked at. -/
theorem closesBrackets_append {opening closing : Token} {allowed : Token → Bool} {depth : Nat}
    {front : List Token} (h : closesBrackets opening closing allowed depth front = true)
    (outer : Nat) (back : List Token) :
    closesBrackets opening closing allowed (depth + outer) (front ++ back) =
      closesBrackets opening closing allowed outer back := by
  induction front generalizing depth with
  | nil =>
    have zero : depth = 0 := by simpa [closesBrackets] using h
    rw [zero, Nat.zero_add, List.nil_append]
  | cons token front ih =>
    rw [closesBrackets] at h
    rw [List.cons_append, closesBrackets]
    split
    · rename_i isOpen
      rw [if_pos isOpen] at h
      rw [← ih h, Nat.add_right_comm]
    · rename_i noOpen
      rw [if_neg noOpen] at h
      split
      · rename_i isClose
        rw [if_pos isClose, Bool.and_eq_true, decide_eq_true_eq] at h
        have inner := ih h.2
        have shorter : depth - 1 + outer = depth + outer - 1 := by omega
        rw [shorter] at inner
        rw [inner, Bool.and_eq_right_iff_imp]
        intro _
        exact decide_eq_true (by omega)
      · rename_i noClose
        rw [if_neg noClose, Bool.and_eq_true] at h
        rw [h.1, Bool.true_and]
        exact ih h.2

/-- The tokens make up the rest of a type inside so many angle brackets. -/
def closesType : Nat → List Token → Bool := closesBrackets (.mark "<") (.mark ">") Token.inType

theorem closesType_append {depth : Nat} {front : List Token} (h : closesType depth front = true)
    (outer : Nat) (back : List Token) :
    closesType (depth + outer) (front ++ back) = closesType outer back :=
  closesBrackets_append h outer back

/-- The parts of the grammar. -/
inductive Rank where
  /-- The items of a list, separated by commas. -/
  | items
  /-- An expression whose operator binds no looser than a level. -/
  | level (p : Precedence)
  /-- An operand with whatever stands behind it. -/
  | tight
  deriving DecidableEq

/-- The tokens are an expression of a rank, with its tree. -/
inductive Derives : Rank → List Token → Tree → Prop where
  | loosen {p q : Precedence} {ts : List Token} {t : Tree} (h : q.level ≤ p.level) :
      Derives (.level p) ts t → Derives (.level q) ts t
  | binary {op : String} {p : Precedence} {ls rs : List Token} {l r : Tree}
      (atLevel : (op, p) ∈ infixOps) :
      Derives (.level p) ls l → Derives (.level p.tighter) rs r →
      Derives (.level p) (ls ++ .mark op :: rs) (.binary op l r)
  | assign {op : String} {ls rs : List Token} {l r : Tree} (isAssign : op ∈ assignOps) :
      Derives (.level .condOr) ls l → Derives (.level .argument) rs r →
      Derives (.level .assign) (ls ++ .mark op :: rs) (.assign op l r)
  | cond {cs ts es : List Token} {c t e : Tree} :
      Derives (.level .condOr) cs c → Derives (.level .statement) ts t →
      Derives (.level .assign) es e →
      Derives (.level .select) (cs ++ .mark "?" :: (ts ++ .mark ":" :: es)) (.cond c t e)
  | prefixed {op : String} {ts : List Token} {t : Tree} (isPrefix : op ∈ prefixOps) :
      Derives (.level .primary) ts t →
      Derives (.level .primary) (.mark op :: ts) (.prefixed op t)
  | ofTight {ts : List Token} {t : Tree} :
      Derives .tight ts t → Derives (.level .primary) ts t
  | postfixed {op : String} {ts : List Token} {t : Tree} (isPostfix : op ∈ postfixOps) :
      Derives .tight ts t → Derives .tight (ts ++ [Token.mark op]) (.postfixed op t)
  | index {ts is : List Token} {t i : Tree} :
      Derives .tight ts t → Derives (.level .statement) is i →
      Derives .tight (ts ++ .mark "[" :: (is ++ [Token.mark "]"])) (.index t i)
  | call {ts as : List Token} {t a : Tree} :
      Derives .tight ts t → Derives .items as a →
      Derives .tight (ts ++ .mark "(" :: (as ++ [Token.mark ")"])) (.call t a)
  | member {op name : String} {ts : List Token} {t : Tree} (isMember : op ∈ memberOps)
      (free : name ∉ keywords) :
      Derives .tight ts t →
      Derives .tight (ts ++ [Token.mark op, .word name]) (.member t op [name])
  | qualify {name : String} {ts : List Token} {t : Tree} (free : name ∉ keywords)
      (noTemplate : t.qualify name ≠ .name templatePath) :
      Derives .tight ts t →
      Derives .tight (ts ++ [Token.mark "::", .word name]) (t.qualify name)
  | name {word : String} (operand : namesOperand word = true) :
      Derives .tight [.word word] (.name [word])
  | literal {token : Token} (isLiteral : token.isLiteral = true) :
      Derives .tight [token] (.literal token)
  | paren {ts : List Token} {t : Tree} :
      Derives (.level .statement) ts t →
      Derives .tight (.mark "(" :: (ts ++ [Token.mark ")"])) t
  | braces {ts : List Token} {t : Tree} :
      Derives .items ts t →
      Derives .tight (.mark "\x7b" :: (ts ++ [Token.mark "\x7d"])) (.braces t)
  | cast {kind : String} {ty ts : List Token} {t : Tree} (isCast : kind ∈ castWords)
      (isType : closesType 0 ty = true) :
      Derives (.level .statement) ts t →
      Derives .tight
        (.word kind :: .mark "<" :: (ty ++ .mark ">" :: .mark "(" :: (ts ++ [Token.mark ")"])))
        (.cast kind ty t)
  | template {ty : List Token} (isType : closesType 0 ty = true) :
      Derives .tight
        (.word "std" :: .mark "::" :: .word "make_shared" :: .mark "<" :: (ty ++ [Token.mark ">"]))
        (.template templatePath ty)
  | noItem : Derives .items [] .nil
  | firstItem {ts : List Token} {t : Tree} :
      Derives (.level .argument) ts t → Derives .items ts (.snoc .nil t)
  | nextItem {fs ts : List Token} {f t : Tree} (some : f ≠ .nil) :
      Derives .items fs f → Derives (.level .argument) ts t →
      Derives .items (fs ++ .mark "," :: ts) (.snoc f t)

/-- The text is an expression of a level, with its tree. -/
def ReadsAt (p : Precedence) (text : String) (t : Tree) : Prop :=
  ∃ ts, Spells text ts ∧ Derives (.level p) ts t

/-- The text is an expression, with its tree. -/
def Reads (text : String) (t : Tree) : Prop := ReadsAt .statement text t

end CppPrinter
