import CppPrinter.Ty.Basic

/-!
# Statements

Statements own the statements inside them and hold expressions of type `ρ`: positions in an arena,
or whatever those are unfolded to.
-/

namespace CppPrinter

/-- A statement with expressions of type `ρ`. -/
inductive Stmt (ρ : Type) where
  | block (body : List (Stmt ρ))
  /-- Declares a local variable. -/
  | declare (name : String) (ty : Ty) (value : Option ρ)
  /-- Declares a local constant. -/
  | constant (name : String) (ty : Ty) (value : ρ)
  | evaluate (value : ρ)
  | ret (value : Option ρ)
  | branch (test : ρ) (positive : Stmt ρ) (negative : Option (Stmt ρ))
  | whileLoop (test : ρ) (body : Stmt ρ)
  | doLoop (body : Stmt ρ) (test : ρ)
  | forLoop (start : Option (Stmt ρ)) (test advance : Option ρ) (body : Stmt ρ)
  | breakLoop
  | continueLoop
  /-- Each case holds its labels and its statements. -/
  | switch (value : ρ) (cases : List (List ρ × List (Stmt ρ))) (otherwise : Option (List (Stmt ρ)))
  /-- Throws; the value thrown is not printed. -/
  | throwing (value : ρ)

namespace Stmt

variable {ρ : Type}

/-- The statement is a brace block. -/
def isBlock : Stmt ρ → Bool
  | block _ => true
  | _ => false

/-- The statement declares a local variable. -/
def isVariable : Stmt ρ → Bool
  | declare .. => true
  | _ => false

end Stmt

end CppPrinter
