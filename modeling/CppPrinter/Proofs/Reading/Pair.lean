import CppPrinter.Proofs.Reading.Spare

/-!
# Pairs of parentheses in a text

A pair of parentheses in a text has a text between them that closes what it opens (`closesText`),
and where the text comes in pieces it is a pair of pieces (`exists_pieces_of_pair`). An operand may
stand in parentheses as a whole. That pair is there for the position of the operand; any other pair
is needed wherever the operand stands (`Frugal.pair_needed`).
-/

namespace CppPrinter

/-- The characters close so many parentheses and all that they open themselves. -/
def closesText : Nat → List Char → Bool
  | depth, [] => depth == 0
  | depth, c :: rest =>
    if c = '(' then closesText (depth + 1) rest
    else if c = ')' then 0 < depth && closesText (depth - 1) rest
    else closesText depth rest

/-- The pieces of an operand, which stands in parentheses unless it fits its position. -/
def enclose (fits : Bool) (pieces : List Piece) : List Piece :=
  if fits then pieces else .opening :: (pieces ++ [Piece.closing])

@[simp] theorem enclose_true (pieces : List Piece) : enclose true pieces = pieces := rfl

@[simp] theorem enclose_false (pieces : List Piece) :
    enclose false pieces = .opening :: (pieces ++ [Piece.closing]) := rfl

section Closing

variable {depth : Nat} {front back ts : List Token} {pieces : List Piece}

theorem closesText_skip {cs : List Char} (noBound : ∀ c ∈ cs, c ∉ ['(', ')', ';']) (depth : Nat)
    (rest : List Char) : closesText depth (cs ++ rest) = closesText depth rest := by
  induction cs with
  | nil => rfl
  | cons c cs ih =>
    obtain ⟨first, others⟩ := List.forall_mem_cons.1 noBound
    simp only [List.mem_cons, List.not_mem_nil, or_false, not_or] at first
    rw [List.cons_append, closesText, if_neg first.1, if_neg first.2.1]
    exact ih others

/-- The pieces close their parentheses as their text does. -/
theorem closesText_flatMap (arePlain : ArePlain pieces) (depth : Nat) :
    closesText depth (pieces.flatMap Piece.chars) = closesParens depth (tokensIn pieces) := by
  induction pieces generalizing depth with
  | nil => rfl
  | cons q rest ih =>
    obtain ⟨plain, arePlain'⟩ := arePlain_cons.1 arePlain
    rw [List.flatMap_cons]
    cases q with
    | opening =>
      rw [tokensIn_opening, closesParens_open, ← ih arePlain']
      rfl
    | closing =>
      rw [tokensIn_closing]
      cases depth with
      | zero => rw [closesParens_zero_close]; rfl
      | succ depth =>
        rw [closesParens_close, ← ih arePlain']
        simp [Piece.chars, closesText]
    | blank =>
      rw [tokensIn_blank, ← ih arePlain']
      rfl
    | token t =>
      rw [tokensIn_token, closesParens_other (Token.IsPlain.not_mem_bounds plain), ← ih arePlain']
      exact closesText_skip plain.noBound depth _

/-- What closes one more parenthesis than are open does not go on to close the others. -/
theorem closesParens_eq_false (h : closesParens (depth + 1) front = true) (back : List Token) :
    closesParens depth (front ++ back) = false := by
  induction front generalizing depth with
  | nil => cases h
  | cons token rest ih =>
    rw [List.cons_append]
    by_cases isOpen : token = .mark "("
    · subst isOpen
      rw [closesParens_open] at h ⊢
      exact ih h
    · by_cases isClose : token = .mark ")"
      · subst isClose
        rw [closesParens_close] at h
        cases depth with
        | zero => exact closesParens_zero_close _
        | succ depth =>
          rw [closesParens_close]
          exact ih h
      · rw [closesParens, closesBrackets, if_neg isOpen, if_neg isClose, Bool.and_eq_true] at h
        rw [closesParens, closesBrackets, if_neg isOpen, if_neg isClose, h.1, Bool.true_and]
        exact ih h.2

/-- A pair of parentheses may be left out or put in. -/
theorem closesParens_pair (h : closesParens 0 ts = true) (depth : Nat) (front back : List Token) :
    closesParens depth (front ++ .mark "(" :: (ts ++ .mark ")" :: back)) =
      closesParens depth (front ++ (ts ++ back)) := by
  induction front generalizing depth with
  | nil =>
    rw [List.nil_append, List.nil_append, closesParens_open, closesParens_behind h,
      closesParens_close, closesParens_behind h]
  | cons token front ih =>
    rw [List.cons_append, List.cons_append, closesParens, closesBrackets, closesBrackets]
    simp only [closesParens] at ih
    rw [ih, ih, ih]

/-- What is open in front of something that closes only its own is not closed. -/
theorem closesParens_open_eq_false (h : closesParens 0 ts = true) (depth : Nat)
    (front : List Token) : closesParens depth (front ++ .mark "(" :: ts) = false := by
  induction front generalizing depth with
  | nil =>
    have behind := closesParens_behind h (depth + 1) []
    rw [List.append_nil] at behind
    rw [List.nil_append, closesParens_open, behind]
    rfl
  | cons token front ih =>
    simp only [closesParens] at ih
    rw [List.cons_append, closesParens, closesBrackets, ih, ih, ih]
    simp

end Closing

namespace Derives

variable {r : Rank} {us ts fs back : List Token} {t f : Tree}

/-- What stands in front of something is not what parentheses around all of it open with. -/
theorem append_ne_enclosed (h : Derives r fs f) (noItems : r ≠ .items) (some : back ≠ [])
    (closes : CppPrinter.closesParens 0 ts = true) :
    fs ++ back ≠ .mark "(" :: (ts ++ [Token.mark ")"]) := by
  intro shape
  obtain ⟨token, rest, rfl, -⟩ := h.startsOperand noItems
  rw [List.cons_append] at shape
  obtain ⟨rfl, behind⟩ := List.cons.inj shape
  have inner : CppPrinter.closesParens 1 rest = true := by
    rw [← closesParens_open]
    exact h.closesParens
  obtain ⟨init, last, rfl⟩ := (List.eq_nil_or_concat' back).resolve_left some
  rw [← List.append_assoc] at behind
  rw [← List.append_inj_left' behind rfl, closesParens_eq_false inner] at closes
  cases closes

/-- What stands in parentheses as a whole is read as what stands between them. -/
theorem of_enclosed (h : Derives r (.mark "(" :: (ts ++ [Token.mark ")"])) t) (noItems : r ≠ .items)
    (closes : CppPrinter.closesParens 0 ts = true) : Derives (.level .statement) ts t := by
  generalize shape : Token.mark "(" :: (ts ++ [Token.mark ")"]) = us at h
  induction h with
  | loosen _ _ ih | ofTight _ ih => exact ih nofun shape
  | binary _ left | assign _ left | cond left | index left | call left | member _ _ left
  | qualify _ _ left | postfixed _ left =>
    exact absurd shape.symm (left.append_ne_enclosed nofun (by simp) closes)
  | prefixed isPrefix =>
    obtain ⟨rfl⟩ := Token.mark.inj (List.cons.inj shape).1
    exact absurd isPrefix (by decide)
  | paren inner =>
    obtain ⟨rfl, -⟩ := List.append_inj' (List.cons.inj shape).2 rfl
    exact inner
  | literal | braces => simp at shape
  | name | cast | template => cases shape
  | noItem | firstItem | nextItem => exact absurd rfl noItems

end Derives

namespace Piece

variable {q : Piece}

theorem eq_opening (plain : q.IsPlain) (inside : '(' ∈ q.chars) : q = opening := by
  cases q with
  | opening => rfl
  | closing | blank => exact absurd inside (by decide)
  | token t => exact absurd (show '(' ∈ ['(', ')', ';'] by decide) (plain.noBound _ inside)

theorem eq_closing (plain : q.IsPlain) (inside : ')' ∈ q.chars) : q = closing := by
  cases q with
  | closing => rfl
  | opening | blank => exact absurd inside (by decide)
  | token t => exact absurd (show ')' ∈ ['(', ')', ';'] by decide) (plain.noBound _ inside)

end Piece

section Pairs

variable {pieces : List Piece} {a m b : String}

/-- A pair of parentheses in a text is one of the pieces of the text. -/
theorem exists_pieces_of_pair (arePlain : ArePlain pieces)
    (shape : render pieces = a ++ "(" ++ m ++ ")" ++ b) :
    ∃ front mid back, pieces = front ++ .opening :: (mid ++ .closing :: back) ∧
      render front = a ∧ render mid = m ∧ render back = b := by
  have chars : pieces.flatMap Piece.chars =
      a.toList ++ '(' :: (m.toList ++ ')' :: b.toList) := by
    rw [← toList_render, shape]
    simp
  obtain ⟨front, behind, rfl, atFront, atBehind⟩ :=
    exists_split (q := Piece.opening) rfl (fun next => Piece.eq_opening) arePlain chars
  obtain ⟨-, arePlain'⟩ := arePlain_append.1 arePlain
  obtain ⟨mid, back, rfl, atMid, atBack⟩ :=
    exists_split (q := Piece.closing) rfl (fun next => Piece.eq_closing)
      (arePlain_cons.1 arePlain').2 atBehind
  have whole {part : List Piece} {text : String}
      (same : part.flatMap Piece.chars = text.toList) : render part = text := by
    rw [render, same, String.ofList_toList]
  exact ⟨front, mid, back, rfl, whole atFront, whole atMid, whole atBack⟩

@[simp] theorem tokensIn_enclosed (pieces : List Piece) :
    tokensIn (.opening :: (pieces ++ [Piece.closing])) =
      .mark "(" :: (tokensIn pieces ++ [Token.mark ")"]) := by
  rw [tokensIn_opening, tokensIn_append]
  rfl

@[simp] theorem render_enclosed (pieces : List Piece) :
    render (.opening :: (pieces ++ [Piece.closing])) = "(" ++ render pieces ++ ")" := by
  simp [String.append_assoc]

theorem arePlain_enclosed (arePlain : ArePlain pieces) :
    ArePlain (.opening :: (pieces ++ [Piece.closing])) :=
  arePlain_cons.2
    ⟨trivial, arePlain_append.2 ⟨arePlain, List.forall_mem_singleton.2 trivial⟩⟩

/-- A pair of parentheses in a text that stands in parentheses is the outermost one or one between
them. -/
theorem outermost_or_inner {front mid back : List Piece}
    (closes : closesParens 0 (tokensIn pieces) = true)
    (closes' : closesParens 0 (tokensIn mid) = true)
    (same : Piece.opening :: (pieces ++ [Piece.closing]) =
      front ++ .opening :: (mid ++ .closing :: back)) :
    (front = [] ∧ back = []) ∨ ∃ front' back', front = .opening :: front' ∧
      back = back' ++ [Piece.closing] ∧ pieces = front' ++ .opening :: (mid ++ .closing :: back') := by
  cases front with
  | nil =>
    have inner : pieces ++ [Piece.closing] = mid ++ .closing :: back := (List.cons.inj same).2
    rcases List.eq_nil_or_concat' back with rfl | ⟨init, last, rfl⟩
    · exact Or.inl ⟨rfl, rfl⟩
    · -- The first parenthesis closes in front of the last piece, so that one does not close it.
      have split : pieces ++ [Piece.closing] = (mid ++ .closing :: init) ++ [last] := by
        rw [inner]
        simp
      rw [List.append_inj_left' split rfl, tokensIn_append, tokensIn_closing,
        closesParens_behind closes', closesParens_zero_close] at closes
      cases closes
  | cons first front' =>
    obtain ⟨rfl, inner⟩ := List.cons.inj same
    rcases List.eq_nil_or_concat' back with rfl | ⟨init, last, rfl⟩
    · have split : pieces = front' ++ .opening :: mid := by
        refine List.append_inj_left' (inner.trans ?_) rfl
        simp
      rw [split, tokensIn_append, tokensIn_opening, closesParens_open_eq_false closes'] at closes
      cases closes
    · have split : pieces ++ [Piece.closing] =
          (front' ++ .opening :: (mid ++ .closing :: init)) ++ [last] := by
        rw [inner]
        simp
      obtain ⟨rfl, lastClosing⟩ := List.append_inj' split rfl
      cases lastClosing
      exact Or.inr ⟨front', init, rfl, rfl, rfl⟩

namespace Frugal

variable {t : Tree} {p : Precedence}

/-- A parenthesis that closes is as needed as the one that opens. -/
theorem closed {d : Profile} {glued : Option Token} {k : Nat} (h : Frugal glued k d pieces) :
    Frugal glued k d (pieces ++ [Piece.closing]) := by
  have nothing (glued : Option Token) : Frugal glued 0 [] [.closing] := .closing .nil
  rw [← List.append_nil d]
  exact h.append nothing

/-- An operand that does not fit needs its parentheses. -/
theorem enclose {d : Profile} (h : Frugal none 0 d pieces) (some : d ≠ []) (fits : Bool) :
    Frugal none 0 (fitted fits d) (enclose fits pieces) := by
  cases fits with
  | true => exact h
  | false => exact .opening (h.raise_one some).closed

/-- In parentheses that stay, a pair is needed as it is without them. -/
theorem not_reads_enclosed {pieces' : List Piece} (strips : Strips pieces pieces')
    (h : Frugal none 0 t.demand pieces) (arePlain : ArePlain pieces)
    (closes : closesParens 0 (tokensIn pieces') = true) :
    ¬ Reads (render (.opening :: (pieces' ++ [Piece.closing]))) t := by
  rintro ⟨us, spells, derives⟩
  have meets := derives.meets
  rw [Tree.fits_statement, fitted_true] at meets
  have same : others us = others (tokensIn (.opening :: (pieces' ++ [Piece.closing]))) := by
    rw [← map_profile 0, ← meets.tokens_eq, h.tokens_eq arePlain, strips.others_eq,
      tokensIn_enclosed]
    simp [others, Token.isOther]
  obtain ⟨rfl, clear⟩ := spells.eq_tokensIn (arePlain_enclosed (strips.arePlain arePlain)) same
  have clear' : Clear none pieces' := Clear.left clear
  rw [tokensIn_enclosed] at derives
  have h' : Frugal none 0 (fitted (t.fits (.level .statement)) t.demand) pieces := by
    rwa [Tree.fits_statement]
  have level_ne_items : Rank.level .statement ≠ .items := by simp
  exact h'.not_derives strips arePlain clear' (derives.of_enclosed level_ne_items closes)

/-- In the text of an operand at a level, the operand is not read at the level without a pair of
parentheses, and without a pair that is not around the whole text it is not read at all. -/
theorem pair_needed (h : Frugal none 0 t.demand pieces) (some : t.demand ≠ [])
    (arePlain : ArePlain pieces) (closes : closesParens 0 (tokensIn pieces) = true)
    (shape : render (CppPrinter.enclose (t.fits (.level p)) pieces) = a ++ "(" ++ m ++ ")" ++ b)
    (matched : closesText 0 m.toList = true) :
    ¬ ReadsAt p (a ++ m ++ b) t ∧ (a ≠ "" ∨ b ≠ "" → ¬ Reads (a ++ m ++ b) t) := by
  have arePlain' : ArePlain (CppPrinter.enclose (t.fits (.level p)) pieces) := by
    unfold CppPrinter.enclose
    split
    · exact arePlain
    · exact arePlain_enclosed arePlain
  obtain ⟨front, mid, back, split, rfl, rfl, rfl⟩ := exists_pieces_of_pair arePlain' shape
  have frugal := h.enclose some (t.fits (.level p))
  have strips := strips_pair front mid back
  rw [split] at arePlain' frugal
  have text : render front ++ render mid ++ render back = render (front ++ (mid ++ back)) := by
    rw [render_append, render_append, String.append_assoc]
  rw [text]
  refine ⟨frugal.not_readsAt strips arePlain', fun inner => ?_⟩
  have midPlain : ArePlain mid := by
    have behind := (arePlain_append.1 arePlain').2
    exact (arePlain_append.1 (arePlain_cons.1 behind).2).1
  have midCloses : closesParens 0 (tokensIn mid) = true := by
    rw [toList_render] at matched
    rwa [← closesText_flatMap midPlain]
  cases fits : t.fits (.level p) with
  | true =>
    rw [fits] at frugal
    have h' : Frugal none 0 (fitted (t.fits (.level .statement)) t.demand)
        (front ++ .opening :: (mid ++ .closing :: back)) := by
      rwa [Tree.fits_statement]
    exact h'.not_readsAt strips arePlain'
  | false =>
    rw [fits] at split
    rcases outermost_or_inner closes midCloses split with
      ⟨rfl, rfl⟩ | ⟨front', back', rfl, rfl, rfl⟩
    · exact absurd inner (by decide)
    · have closes' : closesParens 0 (tokensIn (front' ++ (mid ++ back'))) = true := by
        rw [tokensIn_append, tokensIn_opening, tokensIn_append, tokensIn_closing,
          closesParens_pair midCloses] at closes
        rwa [tokensIn_append, tokensIn_append]
      simpa using h.not_reads_enclosed (strips_pair front' mid back') arePlain closes'

end Frugal

end Pairs

end CppPrinter
