/-!
# Character and string literals

A literal is its delimiter, its characters with those escaped that cannot stand for themselves
(`escapeChar`), and the delimiter again. Control characters without a named escape take exactly
three octal digits, so that a digit after them is never read as part of the escape.
-/

namespace CppPrinter

/-- An octal digit. -/
def octalDigit (n : Nat) : Char := Char.ofNat (0x30 + n % 8)

/-- The three octal digits of a code below 512. -/
def octalDigits (n : Nat) : List Char := [octalDigit (n / 64), octalDigit (n / 8), octalDigit n]

/-- The letter of a control character that has a named escape. -/
def namedEscape? (code : Nat) : Option Char :=
  match code with
  | 0x07 => some 'a'
  | 0x08 => some 'b'
  | 0x09 => some 't'
  | 0x0A => some 'n'
  | 0x0B => some 'v'
  | 0x0C => some 'f'
  | 0x0D => some 'r'
  | _ => none

/-- The spelling of one character inside a literal that `delimiter` ends. -/
def escapeChar (delimiter c : Char) : List Char :=
  match namedEscape? c.toNat with
  | some letter => ['\\', letter]
  | none =>
    if c = '\\' ∨ c = delimiter then ['\\', c]
    else if c.toNat < 0x20 ∨ c.toNat = 0x7F then '\\' :: octalDigits c.toNat
    else [c]

/-- A literal's spelling between its delimiters. -/
def delimited (delimiter : Char) (cs : List Char) : List Char :=
  delimiter :: (cs.flatMap (escapeChar delimiter) ++ [delimiter])

/-- A character literal. -/
def charLiteral (c : Char) : String := String.ofList (delimited '\x27' [c])

/-- A string literal. -/
def stringLiteral (s : String) : String := String.ofList (delimited '\x22' s.toList)

end CppPrinter
