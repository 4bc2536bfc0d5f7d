import CppPrinter.Proofs.Reading.Enclosed

/-!
# Balanced tokens

Parentheses and braces nest in whatever is printed (`IsBalanced`): in a type there are none, and an
expression is put together from tokens and from pairs around expressions (`Derives.isBalanced`). So a
brace that is opened has one that closes it (`exists_closing`), and what stands between the two is
known from the tokens alone (`append_closer_inj`).
-/

namespace CppPrinter

/-- The parentheses and the braces. -/
def brackets : List Token := [.mark "(", .mark ")", .mark "\x7b", .mark "\x7d"]

/-- The parentheses and the braces among the tokens nest. -/
inductive IsBalanced : List Token → Prop where
  | nil : IsBalanced []
  | single {token : Token} (noBracket : token ∉ brackets) : IsBalanced [token]
  | parens {ts : List Token} : IsBalanced ts → IsBalanced (.mark "(" :: (ts ++ [Token.mark ")"]))
  | braces {ts : List Token} :
      IsBalanced ts → IsBalanced (.mark "\x7b" :: (ts ++ [Token.mark "\x7d"]))
  | append {ts us : List Token} : IsBalanced ts → IsBalanced us → IsBalanced (ts ++ us)

/-- The braces among the tokens, with so many that are open in front of them, are all closed. -/
def closesBraces : Nat → List Token → Bool :=
  closesBrackets (.mark "\x7b") (.mark "\x7d") fun _ => true

section Matching

variable {opening closing : Token} {allowed : Token → Bool} {depth : Nat}
  {ts : List Token}

/-- A bracket that is open is closed somewhere. -/
theorem exists_closing (h : closesBrackets opening closing allowed (depth + 1) ts = true) :
    ∃ front back, ts = front ++ closing :: back ∧
      closesBrackets opening closing allowed depth front = true := by
  induction ts generalizing depth with
  | nil => simp [closesBrackets] at h
  | cons token rest ih =>
    rw [closesBrackets] at h
    split at h
    · rename_i isOpen
      obtain ⟨front, back, rfl, closes⟩ := ih h
      exact ⟨token :: front, back, rfl, by rwa [closesBrackets, if_pos isOpen]⟩
    · rename_i noOpen
      split at h
      · rename_i isClose
        subst isClose
        rw [Nat.add_sub_cancel, Bool.and_eq_true] at h
        cases depth with
        | zero => exact ⟨[], rest, rfl, rfl⟩
        | succ depth =>
          obtain ⟨front, back, rfl, closes⟩ := ih h.2
          refine ⟨token :: front, back, rfl, ?_⟩
          rw [closesBrackets, if_neg noOpen, if_pos rfl, Nat.add_sub_cancel, closes]
          simp
      · rename_i noClose
        rw [Bool.and_eq_true] at h
        obtain ⟨front, back, rfl, closes⟩ := ih h.2
        refine ⟨token :: front, back, rfl, ?_⟩
        rw [closesBrackets, if_neg noOpen, if_neg noClose, h.1, closes]
        rfl

end Matching

namespace IsBalanced

variable {token : Token} {ts us : List Token}

theorem cons (noBracket : token ∉ brackets) (h : IsBalanced ts) : IsBalanced (token :: ts) :=
  append (.single noBracket) h

theorem concat (noBracket : token ∉ brackets) (h : IsBalanced ts) : IsBalanced (ts ++ [token]) :=
  h.append (.single noBracket)

theorem of_forall (noBracket : ∀ token ∈ ts, token ∉ brackets) : IsBalanced ts := by
  induction ts with
  | nil => exact .nil
  | cons token rest ih =>
    obtain ⟨first, others⟩ := List.forall_mem_cons.1 noBracket
    exact cons first (ih others)

/-- Parentheses around tokens, in front of others. -/
theorem parens_append (h : IsBalanced ts) (h' : IsBalanced us) :
    IsBalanced (.mark "(" :: (ts ++ .mark ")" :: us)) := by
  simpa using h.parens.append h'

/-- What is balanced leaves the braces behind it as they are. -/
theorem closesBraces_append (h : IsBalanced ts) (depth : Nat) (back : List Token) :
    closesBraces depth (ts ++ back) = closesBraces depth back := by
  have skip {token : Token} (noOpen : token ≠ .mark "\x7b") (noClose : token ≠ .mark "\x7d")
      (depth : Nat) (back : List Token) :
      closesBraces depth (token :: back) = closesBraces depth back := by
    simp [closesBraces, closesBrackets, noOpen, noClose]
  induction h generalizing depth back with
  | nil => rfl
  | single noBracket =>
    refine skip ?_ ?_ depth back <;> · rintro rfl; exact noBracket (by decide)
  | parens _ ih =>
    rw [List.cons_append, List.append_assoc, skip (by decide) (by decide), ih,
      List.singleton_append, skip (by decide) (by decide)]
  | @braces ts _ ih =>
    have opened := ih (depth + 1) (.mark "\x7d" :: back)
    simpa [closesBraces, closesBrackets] using opened
  | append _ _ ih ih' => rw [List.append_assoc, ih, ih']

theorem closesBraces (h : IsBalanced ts) : CppPrinter.closesBraces 0 ts = true := by
  rw [← List.append_nil ts, h.closesBraces_append]
  rfl

end IsBalanced

/-- A type has no parentheses and no braces. -/
theorem isBalanced_of_closesType {depth : Nat} {ts : List Token}
    (h : closesType depth ts = true) : IsBalanced ts := by
  have noType : ∀ t ∈ brackets, t ≠ .mark "<" ∧ t ≠ .mark ">" ∧ t.inType = false := by decide
  refine .of_forall fun token member isBracket => ?_
  obtain ⟨noOpening, noClosing, outside⟩ := noType token isBracket
  rcases mem_of_closesBrackets h member with same | same | allowed
  · exact noOpening same
  · exact noClosing same
  · rw [outside] at allowed
    cases allowed

theorem Derives.isBalanced {rank : Rank} {ts : List Token} {t : Tree} (h : Derives rank ts t) :
    IsBalanced ts := by
  have infixes : ∀ o ∈ infixOps, Token.mark o.1 ∉ brackets := by decide
  have assigns : ∀ op ∈ assignOps, Token.mark op ∉ brackets := by decide
  have prefixes : ∀ op ∈ prefixOps, Token.mark op ∉ brackets := by decide
  have postfixes : ∀ op ∈ postfixOps, Token.mark op ∉ brackets := by decide
  have members : ∀ op ∈ memberOps, Token.mark op ∉ brackets := by decide
  have words (text : String) : Token.word text ∉ brackets := by simp [brackets]
  induction h with
  | loosen _ _ ih | ofTight _ ih | firstItem _ ih => exact ih
  | binary isOp _ _ ihLeft ihRight => exact ihLeft.append (ihRight.cons (infixes _ isOp))
  | assign isAssign _ _ ihLeft ihRight => exact ihLeft.append (ihRight.cons (assigns _ isAssign))
  | cond _ _ _ ihTest ihPositive ihNegative =>
    exact ihTest.append ((ihPositive.append (ihNegative.cons (by decide))).cons (by decide))
  | prefixed isPrefix _ ih => exact ih.cons (prefixes _ isPrefix)
  | postfixed isPostfix _ ih => exact ih.concat (postfixes _ isPostfix)
  | index _ _ ihArray ihPosition =>
    exact ihArray.append ((ihPosition.concat (by decide)).cons (by decide))
  | call _ _ ihCallee ihItems => exact ihCallee.append ihItems.parens
  | member isMember _ _ ih => exact ih.append (.cons (members _ isMember) (.single (words _)))
  | qualify _ _ _ ih => exact ih.append (.cons (by decide) (.single (words _)))
  | name => exact .single (words _)
  | @literal token isLiteral =>
    have noLiteral : ∀ t ∈ brackets, t.isLiteral = false := by decide
    refine .single fun isBracket => ?_
    rw [noLiteral token isBracket] at isLiteral
    cases isLiteral
  | paren _ ih => exact ih.parens
  | braces _ ih => exact ih.braces
  | cast _ isType _ ih =>
    exact .cons (words _) (.cons (by decide)
      ((isBalanced_of_closesType isType).append (ih.parens.cons (by decide))))
  | template isType =>
    exact .cons (words _) (.cons (by decide) (.cons (words _) (.cons (by decide)
      ((isBalanced_of_closesType isType).concat (by decide)))))
  | noItem => exact .nil
  | nextItem _ _ _ ihFront ih => exact ihFront.append (ih.cons (by decide))

end CppPrinter
