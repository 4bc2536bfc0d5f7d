/-!
# Operator precedence

Every operator of the printed language binds at one of fifteen levels, and every operand is
printed for a position that asks for a level. An operand goes into parentheses exactly when its
own operator binds looser than its position asks (`Precedence.parenthesize`).
-/

namespace CppPrinter

/-- The levels of binding, loosest first. -/
inductive Precedence where
  /-- A whole statement or initializer, which never needs parentheses. -/
  | statement
  /-- An item of a list separated by commas. -/
  | argument
  | assign
  /-- The conditional operator. -/
  | select
  | condOr
  | condAnd
  | or
  | xor
  | and
  | equality
  | rel
  | shift
  | add
  | mul
  /-- Calls, members, indexing and the one-operand forms. -/
  | primary
  deriving DecidableEq, Repr

namespace Precedence

/-- The height of a level; a higher level binds tighter. -/
def level : Precedence → Nat
  | statement => 0
  | argument => 1
  | assign => 2
  | select => 3
  | condOr => 4
  | condAnd => 5
  | or => 6
  | xor => 7
  | and => 8
  | equality => 9
  | rel => 10
  | shift => 11
  | add => 12
  | mul => 13
  | primary => 14

/-- The next tighter level, asked of the right operand of an operator that groups to the left. The
tightest level is its own successor. -/
def tighter : Precedence → Precedence
  | statement => argument
  | argument => assign
  | assign => select
  | select => condOr
  | condOr => condAnd
  | condAnd => or
  | or => xor
  | xor => and
  | and => equality
  | equality => rel
  | rel => shift
  | shift => add
  | add => mul
  | mul | primary => primary

/-- An operator at level `p` needs parentheses in a position that asks for a tighter level. -/
def needsParens (p position : Precedence) : Bool :=
  decide (p.level < position.level)

/-- The text of an operator at level `p`, made fit for its position. -/
def parenthesize (p position : Precedence) (text : String) : String :=
  if p.needsParens position then "(" ++ text ++ ")" else text

theorem needsParens_iff (p position : Precedence) :
    p.needsParens position = true ↔ p.level < position.level := by
  simp [needsParens]

theorem parenthesize_of_le {p position : Precedence} (h : position.level ≤ p.level)
    (text : String) : p.parenthesize position text = text := by
  rw [parenthesize, if_neg]
  simp [needsParens, h]

/-- A whole statement never puts parentheses around anything. -/
theorem parenthesize_statement (p : Precedence) (text : String) :
    p.parenthesize statement text = text :=
  parenthesize_of_le (show statement.level ≤ p.level from Nat.zero_le p.level) text

end Precedence

end CppPrinter
