import CppPrinter.Text.Lowercase
import CppPrinter.Text.CaseClass

/-!
# Lowercase of words

A word is put into lowercase character by character, with one rule that looks at the neighbours: a
capital sigma becomes a final sigma where a cased letter stands before it and none after it, marks
and signs inside the word passed over.
-/

namespace CppPrinter

/-- A cased letter comes first, after characters that are passed over. -/
def startsCased (cs : List Char) : Bool :=
  ((cs.dropWhile isCaseIgnorable).head?.map isCased).getD false

/-- The lowercase of a capital sigma between the reversed text before it and the text after it. -/
def lowercaseSigma (before after : List Char) : Char :=
  if startsCased before && !startsCased after then Char.ofNat 0x3C2 else Char.ofNat 0x3C3

/-- The lowercase of a text that continues the reversed text `before`. -/
def lowercaseAfter (before : List Char) : List Char → List Char
  | [] => []
  | c :: rest =>
    (if c.toNat = 0x3A3 then [lowercaseSigma before rest] else lowercase c) ++
      lowercaseAfter (c :: before) rest

/-- The lowercase of a whole text. -/
def lowercaseText (s : String) : String := String.ofList (lowercaseAfter [] s.toList)

end CppPrinter
