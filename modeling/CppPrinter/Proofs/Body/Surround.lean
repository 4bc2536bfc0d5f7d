import CppPrinter.Proofs.Body.Reader
import CppPrinter.Proofs.Reading.Statement
import CppPrinter.Proofs.Stmt.Induction

/-!
# Control statements around their bodies

The tokens of a statement are put together around those of its bodies (`Stmt.Surrounds`): between the
header of a control statement and what follows stands what is printed for the body. Two kinds of
statements are none as they are printed: a constant that is folded into its uses has no tokens at all,
and an expression that starts with a brace is a block and an empty statement. The others are filled
(`Stmt.isFilled`), and each is one statement if its bodies are (`Stmt.Surrounds.isStatement`).
-/

namespace CppPrinter

namespace Stmt

/-- The statements under the header of a control statement, and behind its `else`. -/
def bodies {ρ : Type} : Stmt ρ → List (Stmt ρ)
  | branch _ positive negative => positive :: negative.toList
  | whileLoop _ body | doLoop body _ | forLoop _ _ _ body => [body]
  | _ => []

theorem bodies_subset_children {ρ : Type} (s : Stmt ρ) : s.bodies ⊆ s.children := by
  cases s with
  | forLoop start => exact List.subset_append_right start.toList _
  | branch | whileLoop | doLoop => exact List.Subset.refl _
  | _ => exact List.nil_subset _

/-- The number of conditions without an alternative at the end of a statement. -/
def openIfs {ρ : Type} : Stmt ρ → Nat
  | branch _ positive none => positive.openIfs + 1
  | branch _ positive (some negative) => negative.openIfs + positive.openIfs
  | whileLoop _ body | forLoop _ _ _ body => body.openIfs
  | _ => 0

/-- What is printed for the statement is a statement: it is no constant that is folded into its uses,
and no expression that starts with a brace. -/
def isFilled (env : Env) : Stmt ExprId → Bool
  | constant _ ty _ => ty.isArrayStorage
  | evaluate value => !env.opensBlock value
  | _ => true

/-- How the tokens of a statement are put together around those of its bodies. -/
inductive Surrounds (env : Env) : Stmt ExprId → List (List Token) → List Token → Prop where
  /-- A constant without a line. -/
  | folded {name : String} {ty : Ty} {value : ExprId} (scalar : ty.isArrayStorage = false) :
      Surrounds env (constant name ty value) [] []
  /-- An expression that starts with a brace. -/
  | opening {value : ExprId} {ts : List Token} (opens : env.opensBlock value = true)
      (brace : ts.head? = some (.mark "\x7b")) (balanced : IsBalanced ts) :
      Surrounds env (evaluate value) [] (ts ++ [Token.mark ";"])
  | line {s : Stmt ExprId} {ts : List Token} (alone : s.bodies = []) (closed : s.openIfs = 0)
      (filled : s.isFilled env = true) (isLine : IsLine ts) :
      Surrounds env s [] (ts ++ [Token.mark ";"])
  | block {body : List (Stmt ExprId)} {bs : List Token} (balanced : IsBalanced bs) :
      Surrounds env (block body) [] (.mark "\x7b" :: (bs ++ [Token.mark "\x7d"]))
  | switch {value : ExprId} {cases : List (List ExprId × List (Stmt ExprId))}
      {otherwise : Option (List (Stmt ExprId))} {cs bs : List Token}
      (closes : closesParens 0 cs = true) (balanced : IsBalanced bs) :
      Surrounds env (switch value cases otherwise) []
        (.word "switch" :: .mark "(" ::
          (cs ++ .mark ")" :: .mark "\x7b" :: (bs ++ [Token.mark "\x7d"])))
  | branch {test : ExprId} {positive : Stmt ExprId} {cs ps : List Token}
      (closes : closesParens 0 cs = true) :
      Surrounds env (branch test positive none) [ps]
        (.word "if" :: .mark "(" :: (cs ++ .mark ")" :: ps))
  | choice {test : ExprId} {positive negative : Stmt ExprId} {cs ps ns : List Token}
      (closes : closesParens 0 cs = true) :
      Surrounds env (branch test positive (some negative)) [ps, ns]
        (.word "if" :: .mark "(" :: (cs ++ .mark ")" :: (ps ++ .word "else" :: ns)))
  | whileLoop {test : ExprId} {body : Stmt ExprId} {cs bs : List Token}
      (closes : closesParens 0 cs = true) :
      Surrounds env (whileLoop test body) [bs]
        (.word "while" :: .mark "(" :: (cs ++ .mark ")" :: bs))
  | doLoop {body : Stmt ExprId} {test : ExprId} {bs cs : List Token}
      (closes : closesParens 0 cs = true) :
      Surrounds env (doLoop body test) [bs]
        (.word "do" :: (bs ++ .word "while" :: .mark "(" :: (cs ++ [Token.mark ")", .mark ";"])))
  | forLoop {start : Option (Stmt ExprId)} {test advance : Option ExprId} {body : Stmt ExprId}
      {ss cs as bs : List Token} (noEnd : .mark ";" ∉ ss) (closes : closesParens 0 cs = true)
      (closes' : closesParens 0 as = true) :
      Surrounds env (forLoop start test advance body) [bs]
        (.word "for" :: .mark "(" ::
          (ss ++ .mark ";" :: (cs ++ .mark ";" :: (as ++ .mark ")" :: bs))))

/-- If its bodies are statements, a filled statement is one, and every `else` behind it that it takes
belongs to a condition at its end. -/
theorem Surrounds.isStatement {env : Env} {s : Stmt ExprId} {bss : List (List Token)}
    {ts : List Token} (h : s.Surrounds env bss ts) (filled : s.isFilled env = true)
    (bodies : List.Forall₂ (fun b bs => IsStatement b.openIfs bs) s.bodies bss) :
    IsStatement s.openIfs ts := by
  cases h with
  | folded scalar =>
    rw [isFilled, scalar] at filled
    cases filled
  | opening opens =>
    rw [isFilled, opens] at filled
    cases filled
  | line _ closed _ isLine =>
    rw [closed]
    exact .line isLine
  | block balanced => exact .block balanced.closesBraces
  | switch closes balanced =>
    exact .headed (by decide) closes (.block balanced.closesBraces)
  | branch closes =>
    obtain ⟨positive, -⟩ := List.forall₂_cons.1 bodies
    exact .branch closes positive
  | choice closes =>
    obtain ⟨positive, others⟩ := List.forall₂_cons.1 bodies
    obtain ⟨negative, -⟩ := List.forall₂_cons.1 others
    exact .choice closes positive negative
  | whileLoop closes =>
    obtain ⟨body, -⟩ := List.forall₂_cons.1 bodies
    exact .headed (by decide) closes body
  | doLoop closes =>
    obtain ⟨body, -⟩ := List.forall₂_cons.1 bodies
    exact .doLoop body closes
  | forLoop noEnd closes closes' =>
    obtain ⟨body, -⟩ := List.forall₂_cons.1 bodies
    exact .forLoop noEnd closes closes' body

/-- The tokens are a single statement only if the statement is filled. -/
theorem Surrounds.isFilled {env : Env} {s : Stmt ExprId} {bss : List (List Token)}
    {ts : List Token} (h : s.Surrounds env bss ts) (single : IsSingle ts) :
    s.isFilled env = true := by
  cases h with
  | folded => exact absurd single not_isSingle_nil
  | opening _ brace balanced => exact absurd single (not_isSingle_opening balanced brace)
  | line _ _ filled => exact filled
  | _ => rfl

/-- No statement starts with `else`. -/
theorem Surrounds.noElse {env : Env} {s : Stmt ExprId} {bss : List (List Token)}
    {ts : List Token} (h : s.Surrounds env bss ts) : ts.head? ≠ some (.word "else") := by
  cases h with
  | @opening _ ts _ brace =>
    rw [List.head?_append, brace]
    decide
  | @line _ ts _ _ _ isLine =>
    cases ts with
    | nil => decide
    | cons token rest =>
      intro same
      obtain rfl := Option.some.inj same
      exact isLine.begins _ rfl (by decide)
  | _ => simp

end Stmt

end CppPrinter
