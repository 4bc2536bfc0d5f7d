import CppPrinter.Text.Literal

/-!
# What literals stand for

A literal is read from its delimiter on (`readLiteral?`): a character stands for itself, a backslash
starts an escape, and the first delimiter that is not escaped ends the literal. An escape is a letter or
a mark with a meaning of its own, or as many octal digits as there are, but no more than three. What is
read of a printed literal are its characters, and nothing behind it is touched (`literals_read_back`).
-/

namespace CppPrinter

/-! ### Reading -/

/-- What a letter or a mark stands for behind a backslash. -/
def simpleEscape? : Char → Option Char
  | 'a' => some '\x07'
  | 'b' => some '\x08'
  | 't' => some '\x09'
  | 'n' => some '\x0a'
  | 'v' => some '\x0b'
  | 'f' => some '\x0c'
  | 'r' => some '\x0d'
  | '\\' => some '\\'
  | '\x27' => some '\x27'
  | '\x22' => some '\x22'
  | '?' => some '?'
  | _ => none

def isOctalDigit (c : Char) : Bool := decide ('0' ≤ c) && decide (c ≤ '7')

/-- The octal digits of an escape: all that there are, up to three. -/
def octalRun (cs : List Char) : List Char := (cs.take 3).takeWhile isOctalDigit

/-- The number that octal digits spell. -/
def octalValue (digits : List Char) : Nat := digits.foldl (fun n d => 8 * n + (d.toNat - 0x30)) 0

/-- The character that an escape stands for, and how many characters it takes behind its backslash. A
number beyond ASCII is a byte and not a character. -/
def readEscape? (cs : List Char) : Option (Char × Nat) :=
  match cs.head?.bind simpleEscape? with
  | some c => some (c, 1)
  | none =>
    if octalRun cs ≠ [] ∧ octalValue (octalRun cs) < 0x80 then
      some (Char.ofNat (octalValue (octalRun cs)), (octalRun cs).length)
    else none

/-- The characters up to the delimiter, and what stands behind it. No literal goes on to the next line. -/
def readContents? (delimiter : Char) : List Char → Option (List Char × List Char)
  | [] => none
  | c :: rest =>
    if c = delimiter then some ([], rest)
    else if c = '\n' then none
    else if c = '\\' then do
      let (d, taken) ← readEscape? rest
      let (cs, behind) ← readContents? delimiter (rest.drop taken)
      return (d :: cs, behind)
    else do
      let (cs, behind) ← readContents? delimiter rest
      return (c :: cs, behind)
termination_by cs => cs.length
decreasing_by all_goals simp only [List.length_drop, List.length_cons]; omega

/-- The literal at the start of a text: its delimiter, its characters, and the text behind it. -/
def readLiteral? : List Char → Option (Char × List Char × List Char)
  | [] => none
  | delimiter :: rest =>
    if delimiter = '\x22' ∨ delimiter = '\x27' then do
      return (delimiter, ← readContents? delimiter rest)
    else none

/-! ### Escapes -/

theorem toNat_octalDigit (n : Nat) : (octalDigit n).toNat = 0x30 + n % 8 := by
  have digit : ∀ k < 8, (Char.ofNat (0x30 + k)).toNat = 0x30 + k := by decide
  exact digit (n % 8) (Nat.mod_lt n (by decide))

theorem isOctalDigit_octalDigit (n : Nat) : isOctalDigit (octalDigit n) = true := by
  have digit : ∀ k < 8, isOctalDigit (Char.ofNat (0x30 + k)) = true := by decide
  exact digit (n % 8) (Nat.mod_lt n (by decide))

/-- A digit means nothing of its own behind a backslash. -/
theorem simpleEscape?_octalDigit (n : Nat) : simpleEscape? (octalDigit n) = none := by
  have digit : ∀ k < 8, simpleEscape? (Char.ofNat (0x30 + k)) = none := by decide
  exact digit (n % 8) (Nat.mod_lt n (by decide))

/-- The three digits of a code are read alone, even in front of another digit. -/
theorem octalRun_octalDigits (n : Nat) (rest : List Char) :
    octalRun (octalDigits n ++ rest) = octalDigits n := by
  simp [octalRun, octalDigits, isOctalDigit_octalDigit]

/-- The three digits of a code spell it. -/
theorem octalValue_octalDigits {n : Nat} (small : n < 512) : octalValue (octalDigits n) = n := by
  simp only [octalValue, octalDigits, List.foldl_cons, List.foldl_nil, toNat_octalDigit]
  omega

/-- A named escape is read as the character that it was written for. -/
theorem simpleEscape?_of_namedEscape? {c letter : Char}
    (named : namedEscape? c.toNat = some letter) : simpleEscape? letter = some c := by
  rw [← Char.ofNat_toNat c]
  unfold namedEscape? at named
  split at named <;> cases named <;> rename_i code <;> rw [code] <;> rfl

/-- The escape of a control character in octal digits is read as that character. -/
theorem readEscape?_octalDigits {c : Char} (small : c.toNat < 0x80) (rest : List Char) :
    readEscape? (octalDigits c.toNat ++ rest) = some (c, 3) := by
  have unnamed : (octalDigits c.toNat ++ rest).head?.bind simpleEscape? = none :=
    simpleEscape?_octalDigit (c.toNat / 64)
  have value : octalValue (octalDigits c.toNat) = c.toNat := octalValue_octalDigits (by omega)
  rw [readEscape?, unnamed, octalRun_octalDigits, value, if_pos ⟨List.cons_ne_nil _ _, small⟩,
    Char.ofNat_toNat]
  rfl

theorem readEscape?_of_simpleEscape? {c letter : Char} (named : simpleEscape? letter = some c)
    (rest : List Char) : readEscape? (letter :: rest) = some (c, 1) := by
  simp [readEscape?, named]

/-! ### Literals -/

section Delimited

variable {delimiter : Char} (delimits : delimiter = '\x22' ∨ delimiter = '\x27')

include delimits

/-- The reading goes on behind the escape. -/
theorem readContents?_backslash {c : Char} {taken : Nat} {cs : List Char}
    (escaped : readEscape? cs = some (c, taken)) :
    readContents? delimiter ('\\' :: cs) =
      (do let (ds, behind) ← readContents? delimiter (cs.drop taken)
          return (c :: ds, behind)) := by
  have noDelimiter : '\\' ≠ delimiter := by rcases delimits with rfl | rfl <;> decide
  rw [readContents?, if_neg noDelimiter, if_neg (by decide), if_pos rfl, escaped]
  rfl

/-- One character is read back from its spelling, whatever follows. -/
theorem readContents?_escapeChar (c : Char) (rest : List Char) :
    readContents? delimiter (escapeChar delimiter c ++ rest) =
      (do let (ds, behind) ← readContents? delimiter rest
          return (c :: ds, behind)) := by
  have marks : ∀ d, d = '\\' ∨ d = delimiter → simpleEscape? d = some d := by
    rintro d (rfl | rfl)
    · rfl
    · rcases delimits with rfl | rfl <;> rfl
  unfold escapeChar
  split
  · rename_i letter named
    exact readContents?_backslash delimits
      (readEscape?_of_simpleEscape? (simpleEscape?_of_namedEscape? named) rest)
  · rename_i unnamed
    split
    · rename_i mark
      exact readContents?_backslash delimits (readEscape?_of_simpleEscape? (marks c mark) rest)
    · rename_i noMark
      obtain ⟨noBackslash, noDelimiter⟩ := not_or.1 noMark
      split
      · rename_i control
        exact readContents?_backslash delimits (readEscape?_octalDigits (by omega) rest)
      · have inLine : c ≠ '\n' := by
          rintro rfl
          cases unnamed
        rw [List.singleton_append, readContents?, if_neg noDelimiter, if_neg inLine,
          if_neg noBackslash]

/-- All characters of a literal are read back, and the reading stops behind the delimiter. -/
theorem readContents?_escaped (cs rest : List Char) :
    readContents? delimiter (cs.flatMap (escapeChar delimiter) ++ delimiter :: rest) =
      some (cs, rest) := by
  induction cs with
  | nil => rw [List.flatMap_nil, List.nil_append, readContents?, if_pos rfl]
  | cons c cs ih =>
    rw [List.flatMap_cons, List.append_assoc, readContents?_escapeChar delimits, ih]
    rfl

theorem readLiteral?_delimited (cs rest : List Char) :
    readLiteral? (delimited delimiter cs ++ rest) = some (delimiter, cs, rest) := by
  rw [delimited, List.cons_append, List.append_assoc, List.singleton_append, readLiteral?,
    if_pos delimits, readContents?_escaped delimits]
  rfl

end Delimited

/-- A control character that is not seen in a text: one below the space, or the one that deletes. -/
def isRawControl (c : Char) : Bool := decide (c.toNat < 0x20) || c.toNat == 0x7F

theorem isRawControl_escapeChar {delimiter : Char} (seen : isRawControl delimiter = false)
    (c : Char) : (escapeChar delimiter c).any isRawControl = false := by
  have letter : ∀ {code : Nat} {d : Char}, namedEscape? code = some d → isRawControl d = false := by
    intro code d named
    unfold namedEscape? at named
    split at named <;> cases named <;> rfl
  have digit : ∀ n, isRawControl (octalDigit n) = false := by
    intro n
    rw [isRawControl, toNat_octalDigit]
    simp
    omega
  have backslash : isRawControl '\\' = false := rfl
  unfold escapeChar
  split
  · rename_i d named
    simp [backslash, letter named]
  · split
    · rename_i mark
      rcases mark with rfl | rfl <;> simp [backslash, seen]
    · split
      · simp [octalDigits, backslash, digit]
      · rename_i plain
        simpa [isRawControl] using plain

theorem isRawControl_delimited {delimiter : Char} (seen : isRawControl delimiter = false)
    (cs : List Char) : (delimited delimiter cs).any isRawControl = false := by
  simp [delimited, seen, List.any_flatMap, isRawControl_escapeChar seen]

/-- Literals are read back, in front of any text: from a string literal its string, from a character
literal the one character, and what stands behind the literal is left over. No control character stands
in a literal as it is. -/
theorem literals_read_back :
    (∀ s rest : String,
      readLiteral? (stringLiteral s ++ rest).toList = some ('\x22', s.toList, rest.toList)) ∧
    (∀ (c : Char) (rest : String),
      readLiteral? (charLiteral c ++ rest).toList = some ('\x27', [c], rest.toList)) ∧
    (∀ s : String, (stringLiteral s).toList.any isRawControl = false) ∧
    ∀ c : Char, (charLiteral c).toList.any isRawControl = false := by
  refine ⟨fun s rest => ?_, fun c rest => ?_, fun s => ?_, fun c => ?_⟩
  · rw [String.toList_append, stringLiteral, String.toList_ofList]
    exact readLiteral?_delimited (.inl rfl) s.toList rest.toList
  · rw [String.toList_append, charLiteral, String.toList_ofList]
    exact readLiteral?_delimited (.inr rfl) [c] rest.toList
  · rw [stringLiteral, String.toList_ofList]
    exact isRawControl_delimited rfl s.toList
  · rw [charLiteral, String.toList_ofList]
    exact isRawControl_delimited rfl [c]

end CppPrinter
