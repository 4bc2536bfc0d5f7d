import CppPrinter.Proofs.Reading.Operators
import CppPrinter.Proofs.Reading.Pair

/-!
# Operands without a spare parenthesis

An operand in pieces is read to its tree, and none of its parentheses is spare (`Trim`). The ways in
which the printer puts operands together keep it so, as long as each operand stands in parentheses
where it does not fit its position (`Trim.enclose`) and behind a sign that it would run together with
(`Trim.signParen`).
-/

namespace CppPrinter

/-- The operator changes its operand. -/
def UnaryOp.isStep : UnaryOp → Bool
  | increment | decrement => true
  | _ => false

namespace Token

theorem not_mem_of_inWord {c : Char} (inside : inWord c = true) : c ∉ ['(', ')', ';'] := by
  have noWord : ∀ d ∈ ['(', ')', ';'], inWord d = false := by decide
  intro bound
  rw [noWord c bound] at inside
  cases inside

theorem isPlain_word {name : String} (identifier : IsIdentifier name) : (word name).IsPlain := by
  refine ⟨identifier.scan_eq, rfl, rfl, fun c member => not_mem_of_inWord ?_⟩
  obtain ⟨first, rest, shape, starts, inside⟩ := identifier.spelled
  rw [chars, shape] at member
  rcases List.mem_cons.1 member with rfl | member
  · simp [inWord, starts]
  · exact inside c member

theorem isPlain_number {value : Int64} {text : String} (natural : 0 ≤ value.toInt)
    (printed : (Literal.int value).text = .ok text) : (number text).IsPlain := by
  have noSign : (Literal.int value).isNegative = false := by
    simp [Literal.isNegative, natural]
  obtain ⟨magnitude, numeral, shape⟩ := Literal.text_eq_of_isNumber rfl printed
  rw [noSign] at shape
  cases shape
  refine ⟨numeral.scanned, rfl, rfl, fun c member => not_mem_of_inWord ?_⟩
  have digits : ∀ c ∈ (toString value.toInt).toList, inWord c = true := by
    intro c member
    rw [toString_of_nonneg natural] at member
    exact inWord_of_isDigit (isDigit_of_mem_repr member)
  simp only [Literal.text, Except.ok.injEq] at printed
  rw [chars, ← printed] at member
  split at member
  · exact digits c member
  · rw [String.toList_append] at member
    rcases List.mem_append.1 member with digit | letter
    · exact digits c digit
    · have letters : ∀ c ∈ "LL".toList, inWord c = true := by decide
      exact letters c letter

theorem isPlain_unary (op : UnaryOp) : (mark op.symbol).IsPlain := by
  cases op <;> decide

theorem isPlain_binary {op : BinaryOp} (computes : op.isAssign = false) (noIndex : op ≠ .index) :
    (mark op.symbol).IsPlain := by
  cases op with
  | arith op | order op => cases op <;> decide
  | and | or | eq | notEq => decide
  | index => exact absurd rfl noIndex
  | assign | update => cases computes

end Token

/-- The pieces are an operand of a rank with its tree, and none of their parentheses is spare. -/
structure Trim (r : Rank) (t : Tree) (pieces : List Piece) : Prop where
  arePlain : ArePlain pieces
  phrase : Phrase (render pieces) (tokensIn pieces)
  derives : Derives r (tokensIn pieces) t
  frugal : Frugal none 0 (fitted (t.fits r) t.demand) pieces

@[simp] theorem Tree.fits_rank (t : Tree) : t.fits t.rank = true :=
  decide_eq_true (Nat.le_refl _)

theorem Tree.rank_ne_items (t : Tree) : t.rank ≠ .items := by
  cases t <;> nofun

theorem Derives.lower {r : Rank} {ts : List Token} {t : Tree} {p : Precedence} (h : Derives r ts t)
    (noItems : r ≠ .items) (lower : p.level ≤ r.height) : Derives (.level p) ts t := by
  cases r with
  | items => exact absurd rfl noItems
  | level q => exact .loosen lower h
  | tight => exact h.ofTightAt p

theorem Tree.fits_of_le_rank {t : Tree} {p : Precedence} (h : p.level ≤ t.rank.height) :
    t.fits (.level p) = true :=
  decide_eq_true h

/-- An operand that binds as tight as anything fits everywhere. -/
theorem Tree.fits_of_primary {t : Tree} (h : Precedence.primary.level ≤ t.rank.height)
    (p : Precedence) : t.fits (.level p) = true := by
  have most : p.level ≤ Precedence.primary.level := by cases p <;> decide
  exact Tree.fits_of_le_rank (Nat.le_trans most h)

theorem Tree.rank_binary {op : String} {q : Precedence} (atLevel : (op, q) ∈ infixOps)
    (x y : Tree) : (Tree.binary op x y).rank = .level q := by
  rw [Tree.rank, lookup_infixOps atLevel]
  rfl

/-- Parentheses are put around an operator at a level where it does not fit. -/
theorem render_enclose {t : Tree} {q : Precedence} (h : t.rank = .level q) (p : Precedence)
    (pieces : List Piece) :
    render (enclose (t.fits (.level p)) pieces) = q.parenthesize p (render pieces) := by
  by_cases fits : p.level ≤ q.level
  · have whole : t.fits (.level p) = true := Tree.fits_of_le_rank (by rw [h]; exact fits)
    rw [whole, Precedence.parenthesize_of_le fits]
    rfl
  · have loose : t.fits (.level p) = false := by
      rw [Tree.fits, h]
      exact decide_eq_false fits
    have parens : q.needsParens p = true := (q.needsParens_iff p).2 (Nat.lt_of_not_le fits)
    rw [loose, Precedence.parenthesize, if_pos parens]
    exact render_enclosed pieces

/-- Of the operators that leave their operand as it is, only a minus runs together with one. -/
theorem minus_of_signsMerge {op : UnaryOp} {text : String} (computes : op.isStep = false)
    (merge : signsMerge op.symbol text = true) : op = .neg ∧ text.toList.head? = some '-' := by
  cases first : text.toList.head? with
  | none => simp [signsMerge, first] at merge
  | some c =>
    cases op with
    | neg =>
      have minus : c = '-' := by simpa [signsMerge, UnaryOp.symbol, first] using merge
      exact ⟨rfl, by rw [minus]⟩
    | not | bitNot => simp [signsMerge, UnaryOp.symbol, first] at merge
    | increment | decrement => cases computes

/-- What starts with the sign in front of it needs a parenthesis in between. -/
theorem Frugal.behind_sign {op : UnaryOp} {d : Profile} {pieces : List Piece}
    (h : Frugal none 0 d pieces) (arePlain : ArePlain pieces) (computes : op.isStep = false)
    (merge : signsMerge op.symbol (render pieces) = true) :
    Frugal (some (.mark op.symbol)) 1 d pieces := by
  obtain ⟨rfl, first⟩ := minus_of_signsMerge computes merge
  rw [toList_render] at first
  cases h with
  | nil => cases first
  | opening | closing | blank => simp [Piece.chars] at first
  | @demanded _ _ _ _ t _ _ behind =>
    have starts : t.chars.head? = some '-' := by
      have plain : t.IsPlain := (arePlain_cons.1 arePlain).1
      obtain ⟨c, others, shape⟩ := List.exists_cons_of_ne_nil plain.chars_ne_nil
      rw [List.flatMap_cons, Piece.chars, shape] at first
      rw [shape]
      exact first
    have merges : Merges (.mark "-") t := ⟨'-', starts, by decide⟩
    exact .apart merges behind

/-- The pieces of a search in a string. -/
def searchPieces (text part : String) : List Piece :=
  .token (.word text) :: .token (.mark ".") :: .token (.word "find") :: .opening ::
    .token (.word part) :: .closing :: spaced "!=" (nposTokens.map .token)

theorem render_searchPieces (text part : String) : render (searchPieces text part) =
    text ++ "." ++ "find" ++ "(" ++ part ++ ")" ++ " != std::string::npos" := by
  have npos : " " ++ ("!=" ++ (" " ++ render (nposTokens.map .token))) =
      " != std::string::npos" := by decide
  simp only [searchPieces, render_word, render_mark, render_opening, render_closing,
    render_spaced, String.append_assoc, npos]

namespace Trim

variable {r : Rank} {t x y z : Tree} {p q : Precedence} {pieces xs ys zs : List Piece}

/-- An operand at its own rank, made fit for its position. -/
theorem enclose (h : Trim t.rank t pieces) (p : Precedence) :
    Trim (.level p) t (enclose (t.fits (.level p)) pieces) := by
  have nonempty : t.demand ≠ [] := h.derives.demand_ne_nil (h.derives.ne_nil t.rank_ne_items)
  have frugal : Frugal none 0 t.demand pieces := by simpa using h.frugal
  have frugal' := frugal.enclose nonempty (t.fits (.level p))
  cases fits : t.fits (.level p) with
  | true =>
    rw [fits] at frugal'
    have lower : p.level ≤ t.rank.height := of_decide_eq_true fits
    exact ⟨h.arePlain, h.phrase, h.derives.lower t.rank_ne_items lower, by rwa [fits]⟩
  | false =>
    rw [fits] at frugal'
    have derives : Derives (.level .statement) (tokensIn pieces) t :=
      h.derives.lower t.rank_ne_items (Nat.zero_le _)
    refine ⟨arePlain_enclosed h.arePlain, ?_, ?_, by rwa [fits]⟩
    · rw [enclose_false, render_enclosed, tokensIn_enclosed]
      exact .paren h.phrase.spells
    · rw [enclose_false, tokensIn_enclosed]
      exact derives.parenthesized.ofTightAt p

theorem name {name : String} (identifier : IsIdentifier name) :
    Trim .tight (.name [name]) [.token (.word name)] where
  arePlain := List.forall_mem_singleton.2 (Token.isPlain_word identifier)
  phrase := by
    simpa using Phrase.name identifier
  derives := .name identifier.namesOperand
  frugal := .demanded (Nat.le_refl 0) .nil

theorem int {value : Int64} {text : String} (natural : 0 ≤ value.toInt)
    (printed : (Literal.int value).text = .ok text) :
    Trim .tight (.literal (.number text)) [.token (.number text)] where
  arePlain := List.forall_mem_singleton.2 (Token.isPlain_number natural printed)
  phrase := by
    simpa using Phrase.int natural printed
  derives := .literal rfl
  frugal := .demanded (Nat.le_refl 0) .nil

/-- Two operands with an operator between them, each fit for its position. -/
theorem binary {op : String} (atLevel : (op, q) ∈ infixOps)
    (spells : Spells (" " ++ op) [.mark op]) (plain : (Token.mark op).IsPlain)
    (h : Trim (.level q) x xs) (h' : Trim (.level q.tighter) y ys) :
    Trim (.level q) (.binary op x y) (xs ++ spaced op ys) where
  arePlain := arePlain_append.2 ⟨h.arePlain, arePlain_spaced plain h'.arePlain⟩
  phrase := by
    simpa [between, String.append_assoc] using h.phrase.between spells h'.phrase
  derives := by simpa using Derives.binary atLevel h.derives h'.derives
  frugal := by
    have found := lookup_infixOps atLevel
    have fits : (Tree.binary op x y).fits (.level q) = true := by
      simp [Tree.fits, Tree.rank, found]
    rw [fits, fitted_true, Tree.demand, found]
    exact h.frugal.append (h'.frugal.spaced op)

/-- A condition and two branches. -/
theorem cond (h : Trim (.level .condOr) x xs) (h' : Trim (.level .statement) y ys)
    (h'' : Trim (.level .assign) z zs) :
    Trim (.level .select) (.cond x y z) (xs ++ spaced "?" (ys ++ spaced ":" zs)) where
  arePlain := by
    have question : (Token.mark "?").IsPlain := by decide
    have colon : (Token.mark ":").IsPlain := by decide
    have branches : ArePlain (ys ++ spaced ":" zs) :=
      arePlain_append.2 ⟨h'.arePlain, arePlain_spaced colon h''.arePlain⟩
    exact arePlain_append.2 ⟨h.arePlain, arePlain_spaced question branches⟩
  phrase := by
    have shape : render (xs ++ spaced "?" (ys ++ spaced ":" zs)) =
        render xs ++ " ? " ++ render ys ++ " : " ++ render zs := by
      have asked : " " ++ "?" ++ " " = " ? " := by decide
      have answered : " " ++ ":" ++ " " = " : " := by decide
      rw [render_append, render_spaced, render_append, render_spaced, asked, answered]
      simp only [String.append_assoc]
    rw [shape]
    simpa using h.phrase.cond h'.phrase h''.phrase
  derives := by simpa using Derives.cond h.derives h'.derives h''.derives
  frugal := by
    have branches := h'.frugal.append (h''.frugal.spaced ":")
    rw [Tree.fits_statement, fitted_true] at branches
    exact h.frugal.append (branches.spaced "?")

/-- An operator in front of an operand that it does not run together with. -/
theorem sign (op : UnaryOp) (h : Trim (.level .primary) x xs)
    (apart : signsMerge op.symbol (render xs) = false) :
    Trim (.level .primary) (.prefixed op.symbol x) (.token (.mark op.symbol) :: xs) where
  arePlain := arePlain_cons.2 ⟨Token.isPlain_unary op, h.arePlain⟩
  phrase := by simpa using h.phrase.sign op apart
  derives := .prefixed op.symbol_mem h.derives
  frugal := .demanded (Nat.le_refl 0) (h.frugal.behind _)

/-- A sign in front of an operand that starts with the same sign. -/
theorem signParen (op : UnaryOp) (computes : op.isStep = false) (h : Trim (.level .primary) x xs)
    (merge : signsMerge op.symbol (render xs) = true) :
    Trim (.level .primary) (.prefixed op.symbol x)
      (.token (.mark op.symbol) :: .opening :: (xs ++ [Piece.closing])) where
  arePlain := arePlain_cons.2 ⟨Token.isPlain_unary op, arePlain_enclosed h.arePlain⟩
  phrase := by
    have whole := h.phrase.signParen op
    simpa [String.append_assoc] using whole
  derives := by
    have inner : Derives (.level .primary) (tokensIn (.opening :: (xs ++ [Piece.closing]))) x := by
      rw [tokensIn_enclosed]
      exact h.derives.parenthesized.ofTightAt .primary
    exact .prefixed op.symbol_mem inner
  frugal := by
    have behind := h.frugal.behind_sign h.arePlain computes merge
    exact .demanded (Nat.le_refl 0) (.opening behind.closed)

/-- A search in a string. -/
theorem contains {text part : String} (identifier : IsIdentifier text)
    (identifier' : IsIdentifier part) :
    Trim (.level .equality)
      (.binary "!=" (.call (.member (.name [text]) "." ["find"]) (.snoc .nil (.name [part])))
        (.name ["std", "string", "npos"]))
      (searchPieces text part) where
  arePlain := by
    have dot : (Token.mark ".").IsPlain := by decide
    have find : (Token.word "find").IsPlain := by decide
    have differs : (Token.mark "!=").IsPlain := by decide
    have npos : ∀ t ∈ nposTokens, t.IsPlain := by decide
    have behind : ArePlain (nposTokens.map .token) := List.forall_mem_map.2 npos
    simp only [searchPieces, arePlain_cons]
    exact ⟨Token.isPlain_word identifier, dot, find, trivial, Token.isPlain_word identifier',
      trivial, arePlain_spaced differs behind⟩
  phrase := by
    have noNumber (digits : List Char) : tailOf text ≠ .number digits := by
      rw [identifier.tailOf_eq]
      simp
    rw [render_searchPieces]
    exact (Phrase.name identifier).search noNumber (Phrase.name identifier').spells
  derives := by
    have object : Derives .tight [.word text] (.name [text]) := .name identifier.namesOperand
    have argument : Derives .tight [.word part] (.name [part]) := .name identifier'.namesOperand
    exact object.search (argument.ofTightAt .argument)
  frugal := by
    have npos := (Frugal.tokens none nposTokens).spaced "!=" none
    exact .demanded (Nat.le_refl 0) (.demanded (Nat.le_refl 0) (.demanded (Nat.le_refl 0)
      (.opening (.demanded (Nat.le_refl 1) (.closing npos)))))

end Trim

end CppPrinter
