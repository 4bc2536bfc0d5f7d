import CppPrinter.Expr.Basic

/-!
# Literals that stand for one character

A string of one character and an integer that is a character's code can both be written as a
character literal, provided the character is printable ASCII or has an escape of its own.
-/

namespace CppPrinter

/-- The codes with a plain character literal: printable ASCII and the control characters from the
bell to the carriage return, each of which has a named escape. -/
def isPlainCharCode (code : Int) : Bool :=
  (decide (0x20 ≤ code) && decide (code ≤ 0x7E)) || (decide (0x07 ≤ code) && decide (code ≤ 0x0D))

/-- The character that a literal stands for. -/
def Literal.plainChar? : Literal → Option Char
  | .string value =>
    match value.toList with
    | [c] => if isPlainCharCode c.toNat then some c else none
    | _ => none
  | .int value =>
    if isPlainCharCode value.toInt then some (Char.ofNat value.toInt.toNat) else none
  | _ => none

/-- The character that a node stands for. -/
def Node.plainChar? {ρ : Type} (n : Node ρ) : Option Char := n.literal?.bind Literal.plainChar?

end CppPrinter
