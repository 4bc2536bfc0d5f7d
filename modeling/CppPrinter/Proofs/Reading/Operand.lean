import CppPrinter.Proofs.Reading.Atom
import CppPrinter.Proofs.Reading.Machine

/-!
# Texts with a tree

What the printer does with the texts of operands, it does to their trees: parentheses leave the
tree alone and let it stand anywhere, and items with commas between them are a list.
-/

namespace CppPrinter

/-- Whatever is an expression is one behind which any form may stand, once it is in parentheses. -/
theorem Derives.parenthesized {p : Precedence} {ts : List Token} {t : Tree}
    (h : Derives (.level p) ts t) :
    Derives .tight (.mark "(" :: (ts ++ [Token.mark ")"])) t :=
  .paren (.loosen (Nat.zero_le _) h)

theorem Derives.ofPrimary {ts : List Token} {t : Tree} (h : Derives (.level .primary) ts t)
    (p : Precedence) : Derives (.level p) ts t := by
  refine .loosen ?_ h
  cases p <;> decide

theorem Derives.ofTightAt {ts : List Token} {t : Tree} (h : Derives .tight ts t)
    (p : Precedence) : Derives (.level p) ts t :=
  (Derives.ofTight h).ofPrimary p

/-- The text of an operator is read at any level, once it is made fit for it. -/
theorem ReadsAt.parenthesize {q : Precedence} {text : String} {t : Tree} (h : ReadsAt q text t)
    (p : Precedence) : ReadsAt p (q.parenthesize p text) t := by
  obtain ⟨ts, spells, derives⟩ := h
  unfold Precedence.parenthesize
  split
  · exact ⟨_, (Phrase.paren spells).spells, derives.parenthesized.ofTightAt p⟩
  · rename_i loose
    rw [Precedence.needsParens_iff, Nat.not_lt] at loose
    exact ⟨ts, spells, .loosen loose derives⟩

/-- An operator at a level, made fit for its position. Where only the tightest operand fits, it is
one behind which any form may stand. -/
theorem Phrase.parenthesize {text : String} {ts : List Token} {t : Tree} {q : Precedence}
    (h : Phrase text ts) (derives : Derives (.level q) ts t) (loose : q ≠ .primary)
    (p : Precedence) :
    ∃ us, Phrase (q.parenthesize p text) us ∧ Derives (.level p) us t ∧
      (p = .primary → Derives .tight us t) := by
  by_cases fits : p.level ≤ q.level
  · rw [Precedence.parenthesize_of_le fits]
    refine ⟨ts, h, .loosen fits derives, ?_⟩
    rintro rfl
    exfalso
    revert fits loose
    cases q <;> decide
  · have parens : q.needsParens p = true := by
      rw [Precedence.needsParens_iff]
      omega
    rw [Precedence.parenthesize, if_pos parens]
    exact ⟨_, Phrase.paren h.spells, derives.parenthesized.ofTightAt p,
      fun _ => derives.parenthesized⟩

/-- The assignments of the printer are assignments of the language, and tokens of their own. -/
theorem BinaryOp.symbol_of_isAssign {op : BinaryOp} (assigns : op.isAssign = true) :
    op.symbol ∈ assignOps ∧ Spells (" " ++ op.symbol) [.mark op.symbol] := by
  cases op with
  | assign => decide
  | update op => cases op <;> decide
  | _ => cases assigns

/-- The other operators between operands have levels of the language, and are tokens of their own. -/
theorem BinaryOp.symbol_of_computes {op : BinaryOp} (computes : op.isAssign = false)
    (noIndex : op ≠ .index) :
    (op.symbol, op.level) ∈ infixOps ∧ Spells (" " ++ op.symbol) [.mark op.symbol] := by
  cases op with
  | arith op | order op => cases op <;> decide
  | and | or | eq | notEq => decide
  | index => exact absurd rfl noIndex
  | assign | update => cases computes

theorem UnaryOp.symbol_mem (op : UnaryOp) : op.symbol ∈ prefixOps := by
  cases op <;> decide

/-- The tree of a list with so many items. -/
def itemsTree (items : List Tree) : Tree := items.foldl .snoc .nil

theorem listed_cons (ts : List Token) (rest : List (List Token)) :
    listed (ts :: rest) = ts ++ rest.flatMap (.mark "," :: ·) := by
  induction rest generalizing ts with
  | nil => simp [listed]
  | cons us rest ih => simp [listed, ih]

theorem Derives.nextItems {fs : List Token} {f : Tree} {tss : List (List Token)} {items : List Tree}
    (h : List.Forall₂ (Derives (.level .argument)) tss items) (front : Derives .items fs f)
    (some : f ≠ .nil) :
    Derives .items (fs ++ tss.flatMap (.mark "," :: ·)) (items.foldl .snoc f) := by
  induction h generalizing fs f with
  | nil => simpa using front
  | @cons ts t tss items first _ ih =>
    have next := ih (.nextItem some front first) (by simp)
    simpa using next

/-- Items with commas between them are a list. -/
theorem Derives.listed {tss : List (List Token)} {items : List Tree}
    (h : List.Forall₂ (Derives (.level .argument)) tss items) :
    Derives .items (listed tss) (itemsTree items) := by
  cases h with
  | nil => exact .noItem
  | @cons ts t tss items first rest =>
    rw [listed_cons]
    have front : Derives .items ts (.snoc .nil t) := .firstItem first
    have whole := Derives.nextItems rest front (by simp)
    exact whole

/-- What ends in a number and lets any form stand behind it is that number. -/
theorem Derives.eq_number {ts : List Token} {t : Tree} {digits : String}
    (h : Derives .tight ts t) (last : ts.getLast? = some (.number digits)) :
    ts = [.number digits] ∧ t = .literal (.number digits) := by
  cases h with
  | literal isLiteral => simpa using last
  | name => cases last
  | postfixed | index | call | member | qualify | paren | braces | cast | template =>
    simp [List.getLast?_cons] at last

/-- The last token of a text is what is being read at its end. -/
theorem Spells.getLast?_eq {text : String} {ts : List Token} {token : Token} (h : Spells text ts)
    (tail : (tailOf text).tokens = [token]) : ts.getLast? = some token := by
  rw [← h.2, tail, List.getLast?_concat]

/-- Behind which any form may stand, a dot may stand, unless it is a number. -/
theorem Phrase.noNumber {text : String} {ts : List Token} {t : Tree} (h : Phrase text ts)
    (derives : Derives .tight ts t) (noNumber : ∀ digits, t ≠ .literal (.number digits)) :
    ∀ digits, tailOf text ≠ .number digits := by
  intro digits tail
  exact noNumber _ (derives.eq_number (h.spells.getLast?_eq (by rw [tail]; rfl))).2

/-- The tokens of the name that no position in a string has. -/
def nposTokens : List Token := [.word "std", .mark "::", .word "string", .mark "::", .word "npos"]

theorem Phrase.npos : Phrase "std::string::npos" nposTokens := by
  constructor <;> decide

theorem derives_npos : Derives .tight nposTokens (.name ["std", "string", "npos"]) :=
  .qualify (t := .name ["std", "string"]) (by decide) (by decide)
    (.qualify (t := .name ["std"]) (by decide) (by decide) (.name (by decide)))

end CppPrinter
