import CppPrinter.Proofs.Reading.Enclosed
import CppPrinter.Proofs.Reading.Machine

/-!
# The grammar of statements

What a list of tokens means as a statement is a tree again (`Nesting`), and `Nests` is the grammar
that gives it. The grammar alone leaves a choice, and two rules take it away: an `else` belongs to
the last condition in front of it that has none, and a brace in front of a statement opens a block.
With the rules no tokens have two trees (`Nests.unique`).
-/

namespace CppPrinter

/-- A statement as it is read, or the statements of a block. -/
inductive Nesting where
  | block (body : Nesting)
  /-- An expression or nothing, up to a semicolon. -/
  | evaluate (value : Option Tree)
  | ret (value : Option Tree)
  | throwing (value : Tree)
  | breakLoop
  | continueLoop
  /-- A condition without `else`. -/
  | branch (test : Tree) (positive : Nesting)
  /-- A condition with `else`. -/
  | choice (test : Tree) (positive negative : Nesting)
  | whileLoop (test : Tree) (body : Nesting)
  | doLoop (body : Nesting) (test : Tree)
  /-- The start is an expression or a declaration. Which one, only the names of types tell; so its
  tokens are kept as they stand. -/
  | forLoop (start : List Token) (test advance : Option Tree) (body : Nesting)
  /-- No statement. -/
  | nil
  /-- A statement and the others behind it. -/
  | cons (first rest : Nesting)
  deriving DecidableEq, Repr

namespace Nesting

/-- The statement ends in a condition that has no `else`. -/
def isOpen : Nesting → Bool
  | branch .. => true
  | choice _ _ negative => negative.isOpen
  | whileLoop _ body | forLoop _ _ _ body => body.isOpen
  | _ => false

/-- The token in front of every statement of the kind, if there is one. -/
def lead? : Nesting → Option Token
  | block _ => some (.mark "\x7b")
  | ret _ => some (.word "return")
  | throwing _ => some (.word "throw")
  | breakLoop => some (.word "break")
  | continueLoop => some (.word "continue")
  | branch .. | choice .. => some (.word "if")
  | whileLoop .. => some (.word "while")
  | doLoop .. => some (.word "do")
  | forLoop .. => some (.word "for")
  | evaluate _ | nil | cons .. => none

end Nesting

/-- The tokens are an expression with its tree, or there are none. -/
inductive MayDerive : List Token → Option Tree → Prop where
  | none : MayDerive [] none
  | some {ts : List Token} {t : Tree} : Derives (.level .statement) ts t → MayDerive ts (some t)

/-- The parts of the grammar of statements. -/
inductive Part where
  | single
  /-- The statements of a block. -/
  | sequence
  deriving DecidableEq

/-- The tokens are a part of the grammar, with its tree. The rules hold if they are asked for. -/
inductive Nests (ruled : Bool) : Part → List Token → Nesting → Prop where
  | block {bs : List Token} {b : Nesting} :
      Nests ruled .sequence bs b →
      Nests ruled .single (.mark "\x7b" :: (bs ++ [Token.mark "\x7d"])) (.block b)
  | evaluate {ts : List Token} {t : Option Tree}
      (noBlock : ruled = true → ts.head? ≠ some (.mark "\x7b")) :
      MayDerive ts t →
      Nests ruled .single (ts ++ [Token.mark ";"]) (.evaluate t)
  | ret {ts : List Token} {t : Option Tree} :
      MayDerive ts t →
      Nests ruled .single (.word "return" :: (ts ++ [Token.mark ";"])) (.ret t)
  | throwing {ts : List Token} {t : Tree} :
      Derives (.level .statement) ts t →
      Nests ruled .single (.word "throw" :: (ts ++ [Token.mark ";"])) (.throwing t)
  | breakLoop : Nests ruled .single [.word "break", .mark ";"] .breakLoop
  | continueLoop : Nests ruled .single [.word "continue", .mark ";"] .continueLoop
  | branch {cs ps : List Token} {c : Tree} {p : Nesting} :
      Derives (.level .statement) cs c → Nests ruled .single ps p →
      Nests ruled .single (.word "if" :: .mark "(" :: (cs ++ .mark ")" :: ps)) (.branch c p)
  | choice {cs ps ns : List Token} {c : Tree} {p n : Nesting}
      (nearest : ruled = true → p.isOpen = false) :
      Derives (.level .statement) cs c → Nests ruled .single ps p → Nests ruled .single ns n →
      Nests ruled .single
        (.word "if" :: .mark "(" :: (cs ++ .mark ")" :: (ps ++ .word "else" :: ns)))
        (.choice c p n)
  | whileLoop {cs bs : List Token} {c : Tree} {b : Nesting} :
      Derives (.level .statement) cs c → Nests ruled .single bs b →
      Nests ruled .single (.word "while" :: .mark "(" :: (cs ++ .mark ")" :: bs)) (.whileLoop c b)
  | doLoop {bs cs : List Token} {b : Nesting} {c : Tree} :
      Nests ruled .single bs b → Derives (.level .statement) cs c →
      Nests ruled .single
        (.word "do" :: (bs ++ .word "while" :: .mark "(" :: (cs ++ [Token.mark ")", .mark ";"])))
        (.doLoop b c)
  | forLoop {ss cs as bs : List Token} {c a : Option Tree} {b : Nesting}
      (noEnd : .mark ";" ∉ ss) :
      MayDerive cs c → MayDerive as a → Nests ruled .single bs b →
      Nests ruled .single
        (.word "for" :: .mark "(" ::
          (ss ++ .mark ";" :: (cs ++ .mark ";" :: (as ++ .mark ")" :: bs))))
        (.forLoop ss c a b)
  | nil : Nests ruled .sequence [] .nil
  | cons {fs rs : List Token} {f r : Nesting} :
      Nests ruled .single fs f → Nests ruled .sequence rs r →
      Nests ruled .sequence (fs ++ rs) (.cons f r)

/-- The text is a statement, with its tree. -/
def Stands (text : String) (n : Nesting) : Prop :=
  ∃ ts, Spells text ts ∧ Nests true .single ts n

/-- The text is a statement by some choice of the grammar, with its tree. -/
def MayStand (text : String) (n : Nesting) : Prop :=
  ∃ ts, Spells text ts ∧ Nests false .single ts n

section Ends

variable {cs ds xs ys : List Token} {c d : Tree} {c? d? : Option Tree}

theorem MayDerive.closesParens (h : MayDerive cs c?) : CppPrinter.closesParens 0 cs = true := by
  cases h with
  | none => rfl
  | some derives => exact derives.closesParens

theorem MayDerive.unique (h : MayDerive cs c?) (h' : MayDerive cs d?) : c? = d? := by
  have noNil {t : Tree} : ¬ Derives (.level .statement) [] t := by
    intro derives
    obtain ⟨token, rest, empty, -⟩ := derives.startsOperand nofun
    cases empty
  cases h with
  | none =>
    cases h' with
    | none => rfl
    | some derives => exact absurd derives noNil
  | some derives =>
    cases h' with
    | none => exact absurd derives noNil
    | some derives' => rw [derives'.unique derives]

/-- What stands between parentheses ends where they do. -/
theorem MayDerive.closing_inj (h : MayDerive cs c?) (h' : MayDerive ds d?)
    (same : cs ++ .mark ")" :: xs = ds ++ .mark ")" :: ys) : c? = d? ∧ cs = ds ∧ xs = ys := by
  obtain ⟨rfl, back⟩ := append_closing_inj h.closesParens h'.closesParens same
  exact ⟨h.unique h', rfl, back⟩

/-- What stands in front of a semicolon ends there. -/
theorem MayDerive.semicolon_inj (h : MayDerive cs c?) (h' : MayDerive ds d?)
    (same : cs ++ .mark ";" :: xs = ds ++ .mark ";" :: ys) : c? = d? ∧ cs = ds ∧ xs = ys := by
  obtain ⟨rfl, back⟩ := append_semicolon_inj (not_mem_of_closesParens h.closesParens)
    (not_mem_of_closesParens h'.closesParens) same
  exact ⟨h.unique h', rfl, back⟩

theorem Derives.closing_inj (h : Derives (.level .statement) cs c)
    (h' : Derives (.level .statement) ds d) (same : cs ++ .mark ")" :: xs = ds ++ .mark ")" :: ys) :
    c = d ∧ cs = ds ∧ xs = ys := by
  obtain ⟨tree, rest⟩ := (MayDerive.some h).closing_inj (.some h') same
  exact ⟨Option.some.inj tree, rest⟩

end Ends

namespace Nests

variable {ruled ruled' : Bool} {part : Part} {ts us xs ys : List Token} {n m : Nesting}

/-- With the tree known, the tokens in front of others are known as well, whatever rules hold. -/
theorem append_inj (h : Nests ruled part ts n) (h' : Nests ruled' part us n)
    (same : ts ++ xs = us ++ ys) : ts = us ∧ xs = ys := by
  induction h generalizing us xs ys with
  | block _ ih =>
    cases h' with
    | block body =>
      simp only [List.cons_append, List.append_assoc, List.cons.injEq, true_and] at same
      obtain ⟨rfl, back⟩ := ih body same
      exact ⟨rfl, by simpa using back⟩
  | evaluate _ value =>
    cases h' with
    | evaluate _ value' =>
      rw [List.append_assoc, List.append_assoc] at same
      obtain ⟨-, rfl, back⟩ := value.semicolon_inj value' same
      exact ⟨rfl, back⟩
  | ret value =>
    cases h' with
    | ret value' =>
      simp only [List.cons_append, List.append_assoc, List.cons.injEq, true_and] at same
      obtain ⟨-, rfl, back⟩ := value.semicolon_inj value' same
      exact ⟨rfl, back⟩
  | throwing value =>
    cases h' with
    | throwing value' =>
      simp only [List.cons_append, List.append_assoc, List.cons.injEq, true_and] at same
      obtain ⟨-, rfl, back⟩ := (MayDerive.some value).semicolon_inj (.some value') same
      exact ⟨rfl, back⟩
  | breakLoop =>
    cases h' with
    | breakLoop => exact ⟨rfl, by simpa using same⟩
  | continueLoop =>
    cases h' with
    | continueLoop => exact ⟨rfl, by simpa using same⟩
  | branch test _ ih =>
    cases h' with
    | branch test' positive =>
      simp only [List.cons_append, List.append_assoc, List.cons.injEq, true_and] at same
      obtain ⟨-, rfl, behind⟩ := test.closing_inj test' same
      obtain ⟨rfl, back⟩ := ih positive behind
      exact ⟨rfl, back⟩
  | choice _ test _ _ ihPositive ihNegative =>
    cases h' with
    | choice _ test' positive negative =>
      simp only [List.cons_append, List.append_assoc, List.cons.injEq, true_and] at same
      obtain ⟨-, rfl, behind⟩ := test.closing_inj test' same
      obtain ⟨rfl, otherwise⟩ := ihPositive positive behind
      obtain ⟨rfl, back⟩ := ihNegative negative (List.cons.inj otherwise).2
      exact ⟨rfl, back⟩
  | whileLoop test _ ih =>
    cases h' with
    | whileLoop test' body =>
      simp only [List.cons_append, List.append_assoc, List.cons.injEq, true_and] at same
      obtain ⟨-, rfl, behind⟩ := test.closing_inj test' same
      obtain ⟨rfl, back⟩ := ih body behind
      exact ⟨rfl, back⟩
  | doLoop _ test ih =>
    cases h' with
    | doLoop body test' =>
      simp only [List.cons_append, List.append_assoc, List.cons.injEq, true_and] at same
      obtain ⟨rfl, behind⟩ := ih body same
      simp only [List.cons.injEq, true_and] at behind
      obtain ⟨-, rfl, back⟩ := test.closing_inj test' behind
      exact ⟨rfl, by simpa using back⟩
  | forLoop noEnd test advance _ ih =>
    cases h' with
    | forLoop noEnd' test' advance' body =>
      simp only [List.cons_append, List.append_assoc, List.cons.injEq, true_and] at same
      obtain ⟨-, heads⟩ := append_semicolon_inj noEnd noEnd' same
      obtain ⟨-, rfl, steps⟩ := test.semicolon_inj test' heads
      obtain ⟨-, rfl, behind⟩ := advance.closing_inj advance' steps
      obtain ⟨rfl, back⟩ := ih body behind
      exact ⟨rfl, back⟩
  | nil =>
    cases h' with
    | nil => exact ⟨rfl, same⟩
  | cons _ _ ihFirst ihRest =>
    cases h' with
    | cons first rest =>
      rw [List.append_assoc, List.append_assoc] at same
      obtain ⟨rfl, behind⟩ := ihFirst first same
      obtain ⟨rfl, back⟩ := ihRest rest behind
      exact ⟨rfl, back⟩

end Nests

/-- The tokens that start a statement with a keyword or a block, and those that start none. -/
def statementWords : List Token := [
  .mark "\x7b", .word "return", .word "throw", .word "break", .word "continue", .word "if",
  .word "while", .word "do", .word "for", .word "else", .mark "\x7d"]

namespace Nesting

/-- The token can be the first one of the statement. -/
def Heads (n : Nesting) (token : Token) : Prop :=
  match n.lead? with
  | some lead => token = lead
  | none => token ∉ statementWords

/-- Statements that start alike are of a kind. -/
theorem Heads.lead?_eq {n m : Nesting} {token : Token} (h : n.Heads token) (h' : m.Heads token) :
    n.lead? = m.lead? := by
  have listed {n : Nesting} {lead : Token} (found : n.lead? = some lead) :
      lead ∈ statementWords := by
    cases n <;> cases found <;> decide
  unfold Heads at h h'
  cases left : n.lead? with
  | some lead =>
    rw [left] at h
    cases right : m.lead? with
    | some lead' =>
      rw [right] at h'
      exact congrArg some (h.symm.trans h')
    | none =>
      rw [right] at h'
      exact absurd (listed left) (h ▸ h')
  | none =>
    rw [left] at h
    cases right : m.lead? with
    | some lead' =>
      rw [right] at h'
      exact absurd (listed right) (h' ▸ h)
    | none => rfl

theorem Heads.not_behind {n : Nesting} {token : Token} (h : n.Heads token) :
    token ≠ .word "else" ∧ token ≠ .mark "\x7d" := by
  unfold Heads at h
  split at h
  · rename_i lead found
    rw [h]
    cases n <;> cases found <;> decide
  · refine ⟨?_, ?_⟩ <;> · rintro rfl; exact h (by decide)

end Nesting

/-- What may come behind a part: no `else` behind an open condition, and nothing but a closing brace
behind the statements of a block. -/
def Follows : Part → Nesting → List Token → Prop
  | .single, n, xs => n.isOpen = true → xs.head? ≠ some (.word "else")
  | .sequence, _, xs => ∀ token ∈ xs.head?, token = .mark "\x7d"

theorem Follows.ofClosed {n : Nesting} (closed : n.isOpen = false) (xs : List Token) :
    Follows .single n xs := by
  intro isOpen
  rw [closed] at isOpen
  cases isOpen

namespace Nests

variable {part : Part} {ts us xs ys : List Token} {n m : Nesting}

theorem heads (h : Nests true .single ts n) : ∃ token rest, ts = token :: rest ∧ n.Heads token := by
  cases h with
  | @evaluate ts t noBlock value =>
    have noStatement : ∀ token ∈ statementWords, token.startsOperand = true →
        token = .mark "\x7b" := by decide +kernel
    cases value with
    | none => exact ⟨_, _, rfl, show Token.mark ";" ∉ statementWords by decide⟩
    | some derives =>
      obtain ⟨token, rest, rfl, starts⟩ := derives.startsOperand nofun
      refine ⟨token, _, rfl, ?_⟩
      intro listed
      exact noBlock rfl (congrArg some (noStatement token listed starts))
  | _ => exact ⟨_, _, rfl, rfl⟩

theorem lead?_eq (h : Nests true .single ts n) (h' : Nests true .single us m)
    (same : ts ++ xs = us ++ ys) : n.lead? = m.lead? := by
  obtain ⟨token, rest, rfl, head⟩ := h.heads
  obtain ⟨token', rest', rfl, head'⟩ := h'.heads
  obtain ⟨rfl, -⟩ := List.cons.inj same
  exact head.lead?_eq head'

/-- The end of a block starts no statement. -/
theorem append_ne (h : Nests true .single ts n) (follows : Follows .sequence m ys) :
    ts ++ xs ≠ ys := by
  rintro rfl
  obtain ⟨token, rest, rfl, head⟩ := h.heads
  exact head.not_behind.2 (follows token rfl)

/-- Statements of a block do not start with `else`. -/
theorem follows_first (h : Nests true .sequence ts n) (follows : Follows .sequence n xs) :
    Follows .single m (ts ++ xs) := by
  intro _ otherwise
  cases h with
  | nil => exact absurd (follows _ otherwise) (by decide)
  | cons first _ =>
    obtain ⟨token, rest, rfl, head⟩ := first.heads
    exact head.not_behind.1 (Option.some.inj otherwise)

/-- A statement in front of others has one tree only, provided that nothing behind it belongs to
it. -/
theorem unique_append (h : Nests true part ts n) (h' : Nests true part us m)
    (same : ts ++ xs = us ++ ys) (follows : Follows part n xs) (follows' : Follows part m ys) :
    n = m := by
  have closing {n : Nesting} {zs : List Token} : Follows .sequence n (.mark "\x7d" :: zs) := by
    intro token first
    exact (Option.some.inj first).symm
  induction h generalizing us m xs ys with
  | block body ih =>
    have leads := lead?_eq (.block body) h' same
    cases h' with
    | block body' =>
      simp only [List.cons_append, List.append_assoc, List.cons.injEq, true_and] at same
      rw [ih body' same closing closing]
    | _ => simp [Nesting.lead?] at leads
  | evaluate noBlock value =>
    have leads := lead?_eq (.evaluate noBlock value) h' same
    cases h' with
    | evaluate _ value' =>
      rw [List.append_assoc, List.append_assoc] at same
      rw [(value.semicolon_inj value' same).1]
    | _ => simp [Nesting.lead?] at leads
  | ret value =>
    have leads := lead?_eq (.ret value) h' same
    cases h' with
    | ret value' =>
      simp only [List.cons_append, List.append_assoc, List.cons.injEq, true_and] at same
      rw [(value.semicolon_inj value' same).1]
    | _ => simp [Nesting.lead?] at leads
  | throwing value =>
    have leads := lead?_eq (.throwing value) h' same
    cases h' with
    | throwing value' =>
      simp only [List.cons_append, List.append_assoc, List.cons.injEq, true_and] at same
      rw [Option.some.inj ((MayDerive.some value).semicolon_inj (.some value') same).1]
    | _ => simp [Nesting.lead?] at leads
  | breakLoop =>
    have leads := lead?_eq .breakLoop h' same
    cases h' with
    | breakLoop => rfl
    | _ => simp [Nesting.lead?] at leads
  | continueLoop =>
    have leads := lead?_eq .continueLoop h' same
    cases h' with
    | continueLoop => rfl
    | _ => simp [Nesting.lead?] at leads
  | branch test positive ih =>
    have leads := lead?_eq (.branch test positive) h' same
    cases h' with
    | branch test' positive' =>
      simp only [List.cons_append, List.append_assoc, List.cons.injEq, true_and] at same
      obtain ⟨rfl, rfl, behind⟩ := test.closing_inj test' same
      rw [ih positive' behind (fun _ => follows rfl) fun _ => follows' rfl]
    | choice nearest test' positive' negative' =>
      simp only [List.cons_append, List.append_assoc, List.cons.injEq, true_and] at same
      obtain ⟨-, rfl, behind⟩ := test.closing_inj test' same
      have tree := ih positive' behind (fun _ => follows rfl) (.ofClosed (nearest rfl) _)
      subst tree
      obtain ⟨-, rfl⟩ := positive.append_inj positive' behind
      exact absurd rfl (follows rfl)
    | _ => simp [Nesting.lead?] at leads
  | choice nearest test positive negative ihPositive ihNegative =>
    have leads := lead?_eq (.choice nearest test positive negative) h' same
    cases h' with
    | branch test' positive' =>
      simp only [List.cons_append, List.append_assoc, List.cons.injEq, true_and] at same
      obtain ⟨-, rfl, behind⟩ := test.closing_inj test' same
      have tree := ihPositive positive' behind (.ofClosed (nearest rfl) _) fun _ => follows' rfl
      subst tree
      obtain ⟨-, rfl⟩ := positive.append_inj positive' behind
      exact absurd rfl (follows' rfl)
    | choice nearest' test' positive' negative' =>
      simp only [List.cons_append, List.append_assoc, List.cons.injEq, true_and] at same
      obtain ⟨rfl, rfl, behind⟩ := test.closing_inj test' same
      have tree := ihPositive positive' behind (.ofClosed (nearest rfl) _)
        (.ofClosed (nearest' rfl) _)
      subst tree
      obtain ⟨rfl, otherwise⟩ := positive.append_inj positive' behind
      rw [ihNegative negative' (List.cons.inj otherwise).2 follows follows']
    | _ => simp [Nesting.lead?] at leads
  | whileLoop test body ih =>
    have leads := lead?_eq (.whileLoop test body) h' same
    cases h' with
    | whileLoop test' body' =>
      simp only [List.cons_append, List.append_assoc, List.cons.injEq, true_and] at same
      obtain ⟨rfl, rfl, behind⟩ := test.closing_inj test' same
      rw [ih body' behind follows follows']
    | _ => simp [Nesting.lead?] at leads
  | doLoop body test ih =>
    have leads := lead?_eq (.doLoop body test) h' same
    cases h' with
    | doLoop body' test' =>
      simp only [List.cons_append, List.append_assoc, List.cons.injEq, true_and] at same
      have tree := ih body' same (fun _ => by simp) fun _ => by simp
      subst tree
      obtain ⟨rfl, behind⟩ := body.append_inj body' same
      simp only [List.cons.injEq, true_and] at behind
      rw [(test.closing_inj test' behind).1]
    | _ => simp [Nesting.lead?] at leads
  | forLoop noEnd test advance body ih =>
    have leads := lead?_eq (.forLoop noEnd test advance body) h' same
    cases h' with
    | forLoop noEnd' test' advance' body' =>
      simp only [List.cons_append, List.append_assoc, List.cons.injEq, true_and] at same
      obtain ⟨rfl, heads⟩ := append_semicolon_inj noEnd noEnd' same
      obtain ⟨rfl, rfl, steps⟩ := test.semicolon_inj test' heads
      obtain ⟨rfl, rfl, behind⟩ := advance.closing_inj advance' steps
      rw [ih body' behind follows follows']
    | _ => simp [Nesting.lead?] at leads
  | nil =>
    cases h' with
    | nil => rfl
    | cons first _ =>
      rw [List.append_assoc] at same
      exact absurd same.symm (first.append_ne follows)
  | cons first rest ihFirst ihRest =>
    cases h' with
    | nil =>
      rw [List.append_assoc] at same
      exact absurd same (first.append_ne follows')
    | cons first' rest' =>
      rw [List.append_assoc, List.append_assoc] at same
      have tree := ihFirst first' same (rest.follows_first follows) (rest'.follows_first follows')
      subst tree
      obtain ⟨rfl, behind⟩ := first.append_inj first' same
      rw [ihRest rest' behind follows follows']

/-- No tokens are two statements. -/
theorem unique (h : Nests true .single ts n) (h' : Nests true .single ts m) : n = m := by
  have nothing {n : Nesting} : Follows .single n [] := fun _ => by simp
  exact h.unique_append h' rfl nothing nothing

end Nests

/-- No text is two statements. -/
theorem Stands.unique {text : String} {n m : Nesting} (h : Stands text n) (h' : Stands text m) :
    n = m := by
  obtain ⟨ts, spells, nests⟩ := h
  obtain ⟨us, spells', nests'⟩ := h'
  rw [spells.unique spells'] at nests
  exact nests.unique nests'

end CppPrinter
