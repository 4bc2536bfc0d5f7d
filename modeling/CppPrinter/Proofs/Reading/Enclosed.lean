import CppPrinter.Proofs.Reading.Grammar

/-!
# Where an expression ends

An expression closes every parenthesis that it opens, and no semicolon stands in it
(`Derives.closesParens`). So it ends at the first semicolon, and between parentheses at the one that
it does not close (`append_closing_inj`). The first token of an expression tells it from a statement
with a keyword (`Derives.startsOperand`).
-/

namespace CppPrinter

/-- The tokens with a meaning of their own when it comes to where an expression ends. -/
def bounds : List Token := [.mark "(", .mark ")", .mark ";"]

/-- The tokens close so many parentheses and all that they open themselves, and no semicolon stands
among them. -/
def closesParens : Nat → List Token → Bool :=
  closesBrackets (.mark "(") (.mark ")") fun token => token ≠ .mark ";"

section Parentheses

variable {depth : Nat} {token : Token} {front back ts us xs ys : List Token}

theorem closesParens_append (h : closesParens depth front = true) (outer : Nat)
    (back : List Token) :
    closesParens (depth + outer) (front ++ back) = closesParens outer back :=
  closesBrackets_append h outer back

/-- What closes all its parentheses leaves the rest to be looked at. -/
theorem closesParens_behind (h : closesParens 0 front = true) (depth : Nat) (back : List Token) :
    closesParens depth (front ++ back) = closesParens depth back := by
  rw [← closesParens_append h depth back, Nat.zero_add]

@[simp] theorem closesParens_nil : closesParens 0 [] = true := rfl

@[simp] theorem closesParens_open (depth : Nat) (back : List Token) :
    closesParens depth (.mark "(" :: back) = closesParens (depth + 1) back := by
  simp [closesParens, closesBrackets]

@[simp] theorem closesParens_close (depth : Nat) (back : List Token) :
    closesParens (depth + 1) (.mark ")" :: back) = closesParens depth back := by
  simp [closesParens, closesBrackets]

theorem closesParens_zero_close (back : List Token) :
    closesParens 0 (.mark ")" :: back) = false := by
  simp [closesParens, closesBrackets]

theorem closesParens_other (noBound : token ∉ bounds) (depth : Nat) (back : List Token) :
    closesParens depth (token :: back) = closesParens depth back := by
  simp only [bounds, List.mem_cons, List.not_mem_nil, or_false, not_or] at noBound
  simp [closesParens, closesBrackets, noBound]

/-- Every token is a bracket or allowed between brackets. -/
theorem mem_of_closesBrackets {opening closing : Token} {allowed : Token → Bool}
    (h : closesBrackets opening closing allowed depth ts = true) (member : token ∈ ts) :
    token = opening ∨ token = closing ∨ allowed token = true := by
  induction ts generalizing depth with
  | nil => cases member
  | cons first rest ih =>
    rw [closesBrackets] at h
    rcases List.mem_cons.1 member with rfl | member
    · split at h
      · exact Or.inl ‹_›
      · split at h
        · exact Or.inr (Or.inl ‹_›)
        · rw [Bool.and_eq_true] at h
          exact Or.inr (Or.inr h.1)
    · split at h
      · exact ih h member
      · split at h
        · rw [Bool.and_eq_true] at h
          exact ih h.2 member
        · rw [Bool.and_eq_true] at h
          exact ih h.2 member

theorem not_mem_of_closesParens (h : closesParens depth ts = true) : .mark ";" ∉ ts := by
  intro member
  rcases mem_of_closesBrackets h member with same | same | allowed
  · exact absurd same (by decide)
  · exact absurd same (by decide)
  · exact absurd allowed (by decide)

/-- A type has no parentheses and no semicolon. -/
theorem not_mem_bounds_of_closesType (h : closesType depth ts = true) :
    ∀ token ∈ ts, token ∉ bounds := by
  intro token member isBound
  have noType : ∀ t ∈ bounds, t ≠ .mark "<" ∧ t ≠ .mark ">" ∧ t.inType = false := by decide
  obtain ⟨noOpening, noClosing, outside⟩ := noType token isBound
  rcases mem_of_closesBrackets h member with same | same | allowed
  · exact noOpening same
  · exact noClosing same
  · rw [outside] at allowed
    cases allowed

theorem closesParens_skip (noBound : ∀ token ∈ front, token ∉ bounds) (depth : Nat)
    (back : List Token) : closesParens depth (front ++ back) = closesParens depth back := by
  induction front with
  | nil => rfl
  | cons token front ih =>
    rw [List.cons_append, closesParens_other (noBound token (List.mem_cons_self ..))]
    exact ih fun t member => noBound t (List.mem_cons_of_mem token member)

/-- Where neither of two lists goes on with a token behind the other, the token ends both. -/
theorem append_cons_inj (apart : ∀ mid, us ≠ ts ++ token :: mid)
    (apart' : ∀ mid, ts ≠ us ++ token :: mid)
    (same : ts ++ token :: xs = us ++ token :: ys) : ts = us ∧ xs = ys := by
  rcases List.append_eq_append_iff.1 same with ⟨mid, shape, rest⟩ | ⟨mid, shape, rest⟩
  · cases mid with
    | nil => simpa [eq_comm] using And.intro shape rest
    | cons first mid =>
      obtain ⟨rfl, -⟩ := List.cons.inj rest
      exact absurd shape (apart mid)
  · cases mid with
    | nil => simpa [eq_comm] using And.intro shape rest
    | cons first mid =>
      obtain ⟨rfl, -⟩ := List.cons.inj rest
      exact absurd shape (apart' mid)

/-- The first bracket that is not opened behind it ends what stands in front of it. -/
theorem append_closer_inj {opening closing : Token} {allowed : Token → Bool}
    (distinct : closing ≠ opening)
    (h : closesBrackets opening closing allowed 0 ts = true)
    (h' : closesBrackets opening closing allowed 0 us = true)
    (same : ts ++ closing :: xs = us ++ closing :: ys) : ts = us ∧ xs = ys := by
  have apart {front : List Token} (h : closesBrackets opening closing allowed 0 front = true)
      (mid : List Token) :
      closesBrackets opening closing allowed 0 (front ++ closing :: mid) = false := by
    rw [← Nat.zero_add 0, closesBrackets_append h, closesBrackets, if_neg distinct, if_pos rfl]
    rfl
  refine append_cons_inj ?_ ?_ same
  · rintro mid rfl
    rw [apart h] at h'
    cases h'
  · rintro mid rfl
    rw [apart h'] at h
    cases h

/-- The first parenthesis that is not closed ends what stands in front of it. -/
theorem append_closing_inj (h : closesParens 0 ts = true) (h' : closesParens 0 us = true)
    (same : ts ++ .mark ")" :: xs = us ++ .mark ")" :: ys) : ts = us ∧ xs = ys :=
  append_closer_inj (by decide) h h' same

/-- The first semicolon ends what stands in front of it. -/
theorem append_semicolon_inj (h : .mark ";" ∉ ts) (h' : .mark ";" ∉ us)
    (same : ts ++ .mark ";" :: xs = us ++ .mark ";" :: ys) : ts = us ∧ xs = ys := by
  refine append_cons_inj ?_ ?_ same
  · rintro mid rfl
    exact h' (by simp)
  · rintro mid rfl
    exact h (by simp)

end Parentheses

/-- The token can be the first one of an expression. -/
def Token.startsOperand : Token → Bool
  | word text => namesOperand text || decide (text ∈ castWords)
  | mark text => decide (text ∈ prefixOps ∨ text = "(" ∨ text = "\x7b")
  | number _ | literal .. => true

/-- An expression closes its parentheses. -/
theorem Derives.closesParens {rank : Rank} {ts : List Token} {t : Tree} (h : Derives rank ts t) :
    closesParens 0 ts = true := by
  have infixes : ∀ o ∈ infixOps, Token.mark o.1 ∉ bounds := by decide
  have assigns : ∀ op ∈ assignOps, Token.mark op ∉ bounds := by decide
  have prefixes : ∀ op ∈ prefixOps, Token.mark op ∉ bounds := by decide
  have postfixes : ∀ op ∈ postfixOps, Token.mark op ∉ bounds := by decide
  have members : ∀ op ∈ memberOps, Token.mark op ∉ bounds := by decide
  have words (text : String) : Token.word text ∉ bounds := by simp [bounds]
  induction h with
  | loosen _ _ ih | ofTight _ ih | firstItem _ ih => exact ih
  | binary isOp _ _ ihLeft ihRight =>
    rw [closesParens_behind ihLeft, closesParens_other (infixes _ isOp), ihRight]
  | assign isAssign _ _ ihLeft ihRight =>
    rw [closesParens_behind ihLeft, closesParens_other (assigns _ isAssign), ihRight]
  | cond _ _ _ ihTest ihPositive ihNegative =>
    rw [closesParens_behind ihTest, closesParens_other (by decide), closesParens_behind ihPositive,
      closesParens_other (by decide), ihNegative]
  | prefixed isPrefix _ ih => rw [closesParens_other (prefixes _ isPrefix), ih]
  | postfixed isPostfix _ ih =>
    rw [closesParens_behind ih, closesParens_other (postfixes _ isPostfix), closesParens_nil]
  | index _ _ ihArray ihPosition =>
    rw [closesParens_behind ihArray, closesParens_other (by decide),
      closesParens_behind ihPosition, closesParens_other (by decide), closesParens_nil]
  | call _ _ ihCallee ihItems =>
    rw [closesParens_behind ihCallee, closesParens_open, closesParens_behind ihItems,
      closesParens_close, closesParens_nil]
  | member isMember _ _ ih =>
    rw [closesParens_behind ih, closesParens_other (members _ isMember),
      closesParens_other (words _), closesParens_nil]
  | qualify _ _ _ ih =>
    rw [closesParens_behind ih, closesParens_other (by decide), closesParens_other (words _),
      closesParens_nil]
  | name => rw [closesParens_other (words _), closesParens_nil]
  | @literal token isLiteral =>
    have noBound : token ∉ bounds := by
      intro isBound
      have noLiteral : ∀ t ∈ bounds, t.isLiteral = false := by decide
      rw [noLiteral token isBound] at isLiteral
      cases isLiteral
    rw [closesParens_other noBound, closesParens_nil]
  | paren _ ih =>
    rw [closesParens_open, closesParens_behind ih, closesParens_close, closesParens_nil]
  | braces _ ih =>
    rw [closesParens_other (by decide), closesParens_behind ih, closesParens_other (by decide),
      closesParens_nil]
  | cast _ isType _ ih =>
    rw [closesParens_other (words _), closesParens_other (by decide),
      closesParens_skip (not_mem_bounds_of_closesType isType), closesParens_other (by decide),
      closesParens_open, closesParens_behind ih, closesParens_close, closesParens_nil]
  | template isType =>
    rw [closesParens_other (by decide), closesParens_other (by decide),
      closesParens_other (by decide), closesParens_other (by decide),
      closesParens_skip (not_mem_bounds_of_closesType isType), closesParens_other (by decide),
      closesParens_nil]
  | noItem => rfl
  | nextItem _ _ _ ihFront ih =>
    rw [closesParens_behind ihFront, closesParens_other (by decide), ih]

theorem Derives.noSemicolon {rank : Rank} {ts : List Token} {t : Tree} (h : Derives rank ts t) :
    .mark ";" ∉ ts :=
  not_mem_of_closesParens h.closesParens

/-- An expression starts with a token that can start one. -/
theorem Derives.startsOperand {rank : Rank} {ts : List Token} {t : Tree} (h : Derives rank ts t)
    (noItems : rank ≠ .items) : ∃ token rest, ts = token :: rest ∧ token.startsOperand = true := by
  have longer {front back : List Token}
      (starts : ∃ token rest, front = token :: rest ∧ token.startsOperand = true) :
      ∃ token rest, front ++ back = token :: rest ∧ token.startsOperand = true := by
    obtain ⟨token, rest, rfl, starts⟩ := starts
    exact ⟨token, rest ++ back, rfl, starts⟩
  induction h with
  | loosen _ _ ih => exact ih nofun
  | ofTight _ ih => exact ih nofun
  | binary _ _ _ ih _ | assign _ _ _ ih _ => exact longer (ih nofun)
  | cond _ _ _ ih _ _ => exact longer (ih nofun)
  | postfixed _ _ ih | member _ _ _ ih | qualify _ _ _ ih => exact longer (ih nofun)
  | index _ _ ih _ | call _ _ ih _ => exact longer (ih nofun)
  | prefixed isPrefix => exact ⟨_, _, rfl, by simp [Token.startsOperand, isPrefix]⟩
  | name operand => exact ⟨_, _, rfl, by simp [Token.startsOperand, operand]⟩
  | @literal token isLiteral =>
    refine ⟨token, [], rfl, ?_⟩
    cases token with
    | number | literal => rfl
    | word | mark => cases isLiteral
  | paren | braces | template => exact ⟨_, _, rfl, by decide⟩
  | cast isCast => exact ⟨_, _, rfl, by simp [Token.startsOperand, isCast]⟩
  | noItem | firstItem | nextItem => exact absurd rfl noItems

end CppPrinter
