import CppPrinter.Text.Printable

/-!
# Quoted names in messages

Messages that show a name put it between double quotes. The quote and the backslash are escaped,
the usual control characters take a letter, and other characters that would not be seen take their
hexadecimal code in braces.
-/

namespace CppPrinter

/-- The spelling of one character of a quoted name. -/
def quoteChar (c : Char) : List Char :=
  if c = '\x22' ∨ c = '\\' then ['\\', c]
  else if c = '\n' then ['\\', 'n']
  else if c = '\r' then ['\\', 'r']
  else if c = '\t' then ['\\', 't']
  else if c.toNat = 0 then ['\\', '0']
  else if isPrintable c then [c]
  else '\\' :: 'u' :: '\x7b' :: Nat.toDigits 16 c.toNat ++ ['\x7d']

/-- A name between double quotes. -/
def quoted (name : String) : String :=
  String.ofList ('\x22' :: name.toList.flatMap quoteChar ++ ['\x22'])

end CppPrinter
