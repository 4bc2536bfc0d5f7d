import CppPrinter.Proofs.Reading.Nesting

/-!
# Printed statements and the rules of the grammar

What the printer writes for a statement fits the tree of the statement by some choice of the
grammar. Whether the rules choose that tree is a matter of the parts (`IsLaid`): every way to put a
statement together has a lemma here that says what it takes.
-/

namespace CppPrinter

/-- How the tokens of a part are read: some choice of the grammar gives the tree, and the rules
choose it exactly when the part is kept. -/
structure IsLaid (part : Part) (ts : List Token) (n : Nesting) (isOpen kept : Bool) : Prop where
  nests : Nests false part ts n
  isOpen : n.isOpen = isOpen
  ruled : Nests true part ts n ↔ kept = true

namespace IsLaid

variable {cs ss as ts us : List Token} {c : Tree} {c? a? : Option Tree} {n m : Nesting}
  {isOpen isOpen' kept kept' : Bool}

/-- A statement without statements in it, that the rules leave alone. -/
theorem leaf (h : ∀ ruled, Nests ruled .single ts n) (closed : n.isOpen = false) :
    IsLaid .single ts n false true where
  nests := h false
  isOpen := closed
  ruled := ⟨fun _ => rfl, fun _ => h true⟩

theorem evaluate (h : MayDerive cs c?) :
    IsLaid .single (cs ++ [Token.mark ";"]) (.evaluate c?) false
      !(cs.head? == some (.mark "\x7b")) where
  nests := .evaluate nofun h
  isOpen := rfl
  ruled := by
    rw [Bool.not_eq_true', beq_eq_false_iff_ne]
    refine ⟨fun whole => ?_, fun noBlock => .evaluate (fun _ => noBlock) h⟩
    generalize shape : cs ++ [Token.mark ";"] = ts at whole
    cases whole with
    | evaluate noBlock value =>
      obtain ⟨-, rfl, -⟩ := h.semicolon_inj value shape
      exact noBlock rfl

theorem block (h : IsLaid .sequence ts n isOpen kept) :
    IsLaid .single (.mark "\x7b" :: (ts ++ [Token.mark "\x7d"])) (.block n) false kept where
  nests := .block h.nests
  isOpen := rfl
  ruled := by
    rw [← h.ruled]
    refine ⟨fun whole => ?_, .block⟩
    generalize shape : Token.mark "\x7b" :: (ts ++ [Token.mark "\x7d"]) = whole' at whole
    cases whole with
    | block body =>
      obtain ⟨rfl, -⟩ := h.nests.append_inj body (List.cons.inj shape).2
      exact body

theorem branch (test : Derives (.level .statement) cs c) (h : IsLaid .single ts n isOpen kept) :
    IsLaid .single (.word "if" :: .mark "(" :: (cs ++ .mark ")" :: ts)) (.branch c n)
      true kept where
  nests := .branch test h.nests
  isOpen := rfl
  ruled := by
    rw [← h.ruled]
    refine ⟨fun whole => ?_, .branch test⟩
    generalize shape : Token.word "if" :: .mark "(" :: (cs ++ .mark ")" :: ts) = whole' at whole
    cases whole with
    | branch test' positive =>
      simp only [List.cons.injEq, true_and] at shape
      obtain ⟨-, rfl, rfl⟩ := test.closing_inj test' shape
      exact positive

theorem choice (test : Derives (.level .statement) cs c) (h : IsLaid .single ts n isOpen kept)
    (h' : IsLaid .single us m isOpen' kept') :
    IsLaid .single (.word "if" :: .mark "(" :: (cs ++ .mark ")" :: (ts ++ .word "else" :: us)))
      (.choice c n m) isOpen' (!isOpen && kept && kept') where
  nests := .choice nofun test h.nests h'.nests
  isOpen := h'.isOpen
  ruled := by
    simp only [Bool.and_eq_true, Bool.not_eq_true', ← h.ruled, ← h'.ruled, ← h.isOpen]
    constructor
    · intro whole
      generalize shape : Token.word "if" :: .mark "(" ::
        (cs ++ .mark ")" :: (ts ++ .word "else" :: us)) = whole' at whole
      cases whole with
      | choice nearest test' positive negative =>
        simp only [List.cons.injEq, true_and] at shape
        obtain ⟨-, rfl, behind⟩ := test.closing_inj test' shape
        obtain ⟨rfl, otherwise⟩ := h.nests.append_inj positive behind
        obtain ⟨-, rfl⟩ := List.cons.inj otherwise
        exact ⟨⟨nearest rfl, positive⟩, negative⟩
    · rintro ⟨⟨closed, positive⟩, negative⟩
      exact .choice (fun _ => closed) test positive negative

theorem whileLoop (test : Derives (.level .statement) cs c) (h : IsLaid .single ts n isOpen kept) :
    IsLaid .single (.word "while" :: .mark "(" :: (cs ++ .mark ")" :: ts)) (.whileLoop c n)
      isOpen kept where
  nests := .whileLoop test h.nests
  isOpen := h.isOpen
  ruled := by
    rw [← h.ruled]
    refine ⟨fun whole => ?_, .whileLoop test⟩
    generalize shape : Token.word "while" :: .mark "(" :: (cs ++ .mark ")" :: ts) = whole' at whole
    cases whole with
    | whileLoop test' body =>
      simp only [List.cons.injEq, true_and] at shape
      obtain ⟨-, rfl, rfl⟩ := test.closing_inj test' shape
      exact body

theorem doLoop (h : IsLaid .single ts n isOpen kept) (test : Derives (.level .statement) cs c) :
    IsLaid .single
      (.word "do" :: (ts ++ .word "while" :: .mark "(" :: (cs ++ [Token.mark ")", .mark ";"])))
      (.doLoop n c) false kept where
  nests := .doLoop h.nests test
  isOpen := rfl
  ruled := by
    rw [← h.ruled]
    refine ⟨fun whole => ?_, fun body => .doLoop body test⟩
    generalize shape : Token.word "do" ::
      (ts ++ .word "while" :: .mark "(" :: (cs ++ [Token.mark ")", .mark ";"])) = whole' at whole
    cases whole with
    | doLoop body test' =>
      obtain ⟨rfl, -⟩ := h.nests.append_inj body (List.cons.inj shape).2
      exact body

theorem forLoop (noEnd : .mark ";" ∉ ss) (test : MayDerive cs c?) (advance : MayDerive as a?)
    (h : IsLaid .single ts n isOpen kept) :
    IsLaid .single
      (.word "for" :: .mark "(" ::
        (ss ++ .mark ";" :: (cs ++ .mark ";" :: (as ++ .mark ")" :: ts))))
      (.forLoop ss c? a? n) isOpen kept where
  nests := .forLoop noEnd test advance h.nests
  isOpen := h.isOpen
  ruled := by
    rw [← h.ruled]
    refine ⟨fun whole => ?_, .forLoop noEnd test advance⟩
    generalize shape : Token.word "for" :: .mark "(" ::
      (ss ++ .mark ";" :: (cs ++ .mark ";" :: (as ++ .mark ")" :: ts))) = whole' at whole
    cases whole with
    | forLoop noEnd' test' advance' body =>
      simp only [List.cons.injEq, true_and] at shape
      obtain ⟨-, heads⟩ := append_semicolon_inj noEnd noEnd' shape
      obtain ⟨-, rfl, steps⟩ := test.semicolon_inj test' heads
      obtain ⟨-, rfl, rfl⟩ := advance.closing_inj advance' steps
      exact body

theorem nil : IsLaid .sequence [] .nil false true where
  nests := .nil
  isOpen := rfl
  ruled := ⟨fun _ => rfl, fun _ => .nil⟩

theorem cons (h : IsLaid .single ts n isOpen kept) (h' : IsLaid .sequence us m isOpen' kept') :
    IsLaid .sequence (ts ++ us) (.cons n m) false (kept && kept') where
  nests := .cons h.nests h'.nests
  isOpen := rfl
  ruled := by
    rw [Bool.and_eq_true, ← h.ruled, ← h'.ruled]
    constructor
    · intro whole
      generalize shape : ts ++ us = whole' at whole
      cases whole with
      | cons first rest =>
        obtain ⟨rfl, rfl⟩ := h.nests.append_inj first shape
        exact ⟨first, rest⟩
    · rintro ⟨first, rest⟩
      exact .cons first rest

end IsLaid

end CppPrinter
