import CppPrinter.Proofs.Result

/-!
# Tokens of the printed language

Text is read into tokens character by character, and each token takes as many characters as it can
(`Pending.grow?`). What is being read when the text ends is its tail (`tailOf`); so the tokens of
two texts in a row are those of the first and those of the second exactly when the first character
of the second does not go on with the tail of the first (`Joins`, `Spells.append`).
-/

namespace CppPrinter

/-- A token of the printed language. -/
inductive Token where
  /-- An identifier or a keyword. -/
  | word (text : String)
  /-- Whatever starts like a number, up to the last character that can belong to one. -/
  | number (text : String)
  /-- A character or string literal, the escapes in it as they stand. -/
  | literal (delimiter : Char) (contents sfx : String)
  /-- An operator or a punctuation mark. -/
  | mark (text : String)
  deriving DecidableEq, Repr

/-- The words with a meaning of their own. -/
def keywords : List String := [
  "alignas", "alignof", "and", "and_eq", "asm", "auto", "bitand", "bitor", "bool", "break", "case",
  "catch", "char", "char8_t", "char16_t", "char32_t", "class", "co_await", "co_return", "co_yield",
  "compl", "concept", "const", "const_cast", "consteval", "constexpr", "constinit", "continue",
  "decltype", "default", "delete", "do", "double", "dynamic_cast", "else", "enum", "explicit",
  "export", "extern", "false", "float", "for", "friend", "goto", "if", "inline", "int", "long",
  "mutable", "namespace", "new", "noexcept", "not", "not_eq", "nullptr", "operator", "or", "or_eq",
  "private", "protected", "public", "register", "reinterpret_cast", "requires", "return", "short",
  "signed", "sizeof", "static", "static_assert", "static_cast", "struct", "switch", "template",
  "this", "thread_local", "throw", "true", "try", "typedef", "typeid", "typename", "union",
  "unsigned", "using", "virtual", "void", "volatile", "wchar_t", "while", "xor", "xor_eq"]

/-- The operators and punctuation marks. A beginning of a longer mark counts as one, although no
rule of the language takes it. -/
def marks : List (List Char) := [
  ['\x7b'], ['\x7d'], ['['], [']'], ['('], [')'], [';'], [','], ['?'], ['~'],
  [':'], [':', ':'], [':', '>'], ['.'], ['.', '*'], ['.', '.'], ['.', '.', '.'],
  ['+'], ['+', '+'], ['+', '='], ['-'], ['-', '-'], ['-', '='], ['-', '>'], ['-', '>', '*'],
  ['*'], ['*', '='], ['/'], ['/', '='], ['%'], ['%', '='], ['%', '>'], ['%', ':'],
  ['%', ':', '%'], ['%', ':', '%', ':'], ['^'], ['^', '='], ['&'], ['&', '&'], ['&', '='],
  ['|'], ['|', '|'], ['|', '='], ['!'], ['!', '='], ['='], ['=', '='],
  ['<'], ['<', '='], ['<', '=', '>'], ['<', '<'], ['<', '<', '='], ['<', ':'], ['<', '%'],
  ['>'], ['>', '='], ['>', '>'], ['>', '>', '='], ['#'], ['#', '#']]

/-- The words that a literal may have in front of its delimiter. -/
def literalPrefixes : List (List Char) := [
  ['u', '8'], ['u'], ['U'], ['L'], ['R'], ['u', '8', 'R'], ['u', 'R'], ['U', 'R'], ['L', 'R']]

/-- The characters that an identifier may start with. Every character beyond ASCII counts. -/
def startsWord (c : Char) : Bool := c.isAlpha || c == '_' || decide (0x80 ≤ c.toNat)

/-- The characters that an identifier may go on with. -/
def inWord (c : Char) : Bool := startsWord c || c.isDigit

/-- To ask something of all characters of a list is to go through the list, although there are only
finitely many characters at all. -/
instance decidableForallMemChar (cs : List Char) (p : Char → Prop) [DecidablePred p] :
    Decidable (∀ c ∈ cs, p c) :=
  List.decidableBAll p cs

theorem mem_digits_of_isDigit {c : Char} (h : c.isDigit = true) :
    c ∈ ['0', '1', '2', '3', '4', '5', '6', '7', '8', '9'] := by
  obtain ⟨low, high⟩ : 48 ≤ c.toNat ∧ c.toNat ≤ 57 := Char.isDigit_iff_toNat.1 h
  have listed : ∀ n < 58, 48 ≤ n →
      Char.ofNat n ∈ ['0', '1', '2', '3', '4', '5', '6', '7', '8', '9'] := by decide
  rw [← Char.ofNat_toNat c]
  exact listed c.toNat (by omega) low

theorem inWord_of_isDigit {c : Char} (h : c.isDigit = true) : inWord c = true := by
  simp [inWord, h]

theorem isDigit_eq_false_of_startsWord {c : Char} (h : startsWord c = true) :
    c.isDigit = false := by
  have noStart : ∀ c ∈ ['0', '1', '2', '3', '4', '5', '6', '7', '8', '9'],
      startsWord c = false := by decide
  cases digit : c.isDigit with
  | false => rfl
  | true =>
    rw [noStart c (mem_digits_of_isDigit digit)] at h
    cases h

/-- A name of the printed language: the characters of an identifier, and no keyword. -/
structure IsIdentifier (name : String) : Prop where
  spelled : ∃ first rest, name.toList = first :: rest ∧ startsWord first = true ∧
    ∀ c ∈ rest, inWord c = true
  free : name ∉ keywords

instance (name : String) : Decidable (IsIdentifier name) :=
  decidable_of_iff
    ((name.toList.head?.any startsWord && name.toList.tail.all inWord) = true ∧ name ∉ keywords)
    (by
      constructor
      · rintro ⟨spelled, free⟩
        refine ⟨?_, free⟩
        cases shape : name.toList with
        | nil => simp [shape] at spelled
        | cons first rest =>
          simp only [shape, List.head?_cons, Option.any_some, List.tail_cons, Bool.and_eq_true,
            List.all_eq_true] at spelled
          exact ⟨first, rest, rfl, spelled.1, spelled.2⟩
      · rintro ⟨⟨first, rest, shape, starts, inside⟩, free⟩
        simpa [shape, starts] using ⟨inside, free⟩)

/-- The number is at the mark of its exponent, after which a sign belongs to it. -/
def atExponent (digits : List Char) : Bool :=
  digits.getLast?.any fun c => c == 'e' || c == 'E' || c == 'p' || c == 'P'

/-- What is being read when a character comes. -/
inductive Pending where
  /-- Nothing: the text just starts, or a space came last. -/
  | blank
  | word (text : List Char)
  | number (text : List Char)
  | mark (text : List Char)
  /-- Between the delimiters of a literal. -/
  | inside (delimiter : Char) (contents : List Char)
  /-- Behind a backslash in a literal. -/
  | escape (delimiter : Char) (contents : List Char)
  /-- Behind a literal, in its suffix. -/
  | behind (delimiter : Char) (contents sfx : List Char)
  /-- Something that is not read here: a comment, a literal with a prefix, a digit separator, a
  literal that its line does not end, or a character that belongs to no token. -/
  | stuck
  deriving DecidableEq

namespace Pending

/-- The token that is over. -/
def tokens : Pending → List Token
  | word text => [.word (String.ofList text)]
  | number text => [.number (String.ofList text)]
  | mark text => [.mark (String.ofList text)]
  | behind delimiter contents sfx =>
    [.literal delimiter (String.ofList contents) (String.ofList sfx)]
  | _ => []

/-- The text may end here. -/
def isWhole : Pending → Bool
  | inside .. | escape .. | stuck => false
  | mark text => decide (text ∈ marks)
  | _ => true

/-- A token that starts with a character. -/
def start (c : Char) : Pending :=
  if c == ' ' || c == '\t' || c == '\n' then blank
  else if startsWord c then word [c]
  else if c.isDigit then number [c]
  else if c == '\x22' || c == '\x27' then inside c []
  else if [c] ∈ marks then mark [c]
  else stuck

/-- The character goes on with what is being read. -/
def grow? : Pending → Char → Option Pending
  | blank, _ => none
  | word text, c =>
    if inWord c then some (word (text ++ [c]))
    else if (c == '\x22' || c == '\x27') && decide (text ∈ literalPrefixes) then some stuck
    else none
  | number text, c =>
    if inWord c || c == '.' || ((c == '+' || c == '-') && atExponent text) then
      some (number (text ++ [c]))
    else if c == '\x27' then some stuck
    else none
  | mark text, c =>
    if text == ['.'] && c.isDigit then some (number ['.', c])
    else if text == ['/'] && (c == '/' || c == '*') then some stuck
    else if text ++ [c] ∈ marks then some (mark (text ++ [c]))
    else none
  | inside delimiter contents, c =>
    if c == delimiter then some (behind delimiter contents [])
    else if c == '\\' then some (escape delimiter contents)
    else if c == '\n' then some stuck
    else some (inside delimiter (contents ++ [c]))
  | escape delimiter contents, c =>
    if c == '\n' then some stuck else some (inside delimiter (contents ++ ['\\', c]))
  | behind delimiter contents sfx, c =>
    if startsWord c || (c.isDigit && !sfx.isEmpty) then
      some (behind delimiter contents (sfx ++ [c]))
    else none
  | stuck, _ => some stuck

/-- The tokens that are over when a character comes, and what is being read then. -/
def next (p : Pending) (c : Char) : List Token × Pending :=
  match p.grow? c with
  | some q => ([], q)
  | none => (p.tokens, start c)

/-- The tokens that are over when a whole text has come, and what is being read then. -/
def scan (p : Pending) : List Char → List Token × Pending
  | [] => ([], p)
  | c :: rest =>
    ((p.next c).1 ++ ((p.next c).2.scan rest).1, ((p.next c).2.scan rest).2)

@[simp] theorem scan_nil (p : Pending) : p.scan [] = ([], p) := rfl

theorem scan_append (p : Pending) (front back : List Char) :
    p.scan (front ++ back) =
      ((p.scan front).1 ++ ((p.scan front).2.scan back).1, ((p.scan front).2.scan back).2) := by
  induction front generalizing p with
  | nil => simp
  | cons c rest ih => simp [scan, ih]

@[simp] theorem blank_scan_cons (c : Char) (rest : List Char) :
    blank.scan (c :: rest) = (start c).scan rest := by
  have fresh : blank.next c = ([], start c) := rfl
  simp [scan, fresh]

/-- Where the first character starts a new token, the rest is read as if nothing came before. -/
theorem scan_of_grow?_eq_none {p : Pending} {c : Char} (fresh : p.grow? c = none)
    (rest : List Char) :
    p.scan (c :: rest) =
      (p.tokens ++ (blank.scan (c :: rest)).1, (blank.scan (c :: rest)).2) := by
  have ended : p.next c = (p.tokens, start c) := by rw [next, fresh]
  rw [blank_scan_cons, scan, ended]

/-- The spaces, brackets and marks that start a new token behind anything. -/
def separators : List Char :=
  [' ', '\t', '\n', '(', ')', '[', ']', '\x7b', '\x7d', ',', ';', '?']

/-- The marks that an operand may end in. -/
def closings : List (List Char) := [[')'], [']'], ['\x7d'], ['+', '+'], ['-', '-']]

/-- What is being read ends an operand, be it a name, a literal or a bracket. -/
def endsOperand : Pending → Bool
  | word _ | behind .. => true
  | number text => !atExponent text
  | mark text => decide (text ∈ closings)
  | _ => false

theorem grow?_separator {p : Pending} {c : Char} (whole : p.isWhole = true)
    (separates : c ∈ separators) : p.grow? c = none := by
  have noWord : ∀ c ∈ separators, inWord c = false := by decide +kernel
  -- A mark that ends in a separator is the separator alone.
  have lone : ∀ m ∈ marks, ∀ c ∈ separators, m.getLast? = some c → m.length = 1 := by decide +kernel
  have noOther : ∀ c ∈ separators, c ≠ '\x22' ∧ c ≠ '\x27' ∧ c ≠ '.' ∧ c ≠ '+' ∧ c ≠ '-' ∧
      c ≠ '/' ∧ c ≠ '*' := by decide +kernel
  have noStart : startsWord c = false ∧ c.isDigit = false := by
    simpa [inWord] using noWord c separates
  cases p with
  | blank => rfl
  | word text => simp [grow?, noWord c separates, noOther c separates]
  | number text => simp [grow?, noWord c separates, noOther c separates]
  | mark text =>
    have listed : text ∈ marks := by simpa [isWhole] using whole
    have noMark : text ++ [c] ∉ marks := by
      intro longer
      have empty : text = [] := by simpa using lone _ longer c separates (by simp)
      subst empty
      revert listed
      decide
    simp [grow?, noStart.2, noOther c separates, noMark]
  | behind delimiter contents sfx => simp [grow?, noStart]
  | inside | escape | stuck => cases whole

theorem isWhole_of_endsOperand {p : Pending} (ends : p.endsOperand = true) : p.isWhole = true := by
  have closingsWhole : ∀ m ∈ closings, m ∈ marks := by decide
  cases p with
  | mark text =>
    simp only [endsOperand, decide_eq_true_eq] at ends
    exact decide_eq_true (closingsWhole text ends)
  | blank | word | number | behind => rfl
  | inside | escape | stuck => cases ends

/-- Behind an operand, the marks of a step, an arrow and a scope start a new token. -/
theorem grow?_joint {p : Pending} {c : Char} (ends : p.endsOperand = true)
    (joint : c ∈ ['+', '-', ':', '>']) : p.grow? c = none := by
  have noWord : ∀ c ∈ ['+', '-', ':', '>'], inWord c = false ∧ startsWord c = false ∧
      c.isDigit = false := by decide
  have noMark : ∀ c ∈ ['+', '-', ':', '>'], ∀ m ∈ closings, m ++ [c] ∉ marks := by decide
  have noOther : ∀ c ∈ ['+', '-', ':', '>'], c ≠ '\x22' ∧ c ≠ '\x27' ∧ c ≠ '.' ∧ c ≠ '/' ∧
      c ≠ '*' := by decide
  cases p with
  | word text => simp [grow?, noWord c joint, noOther c joint]
  | number text =>
    have ended : atExponent text = false := by simpa [endsOperand] using ends
    simp [grow?, noWord c joint, noOther c joint, ended]
  | mark text =>
    have listed : text ∈ closings := by simpa [endsOperand] using ends
    simp [grow?, noWord c joint, noOther c joint, noMark c joint text listed]
  | behind delimiter contents sfx => simp [grow?, noWord c joint]
  | blank | inside | escape | stuck => cases ends

/-- Behind anything but a number, a dot starts a new token. -/
theorem grow?_dot {p : Pending} (ends : p.endsOperand = true) (noNumber : ∀ text, p ≠ number text) :
    p.grow? '.' = none := by
  have noMark : ∀ m ∈ closings, m ++ ['.'] ∉ marks := by decide
  cases p with
  | word text => simp [grow?, show inWord '.' = false by decide]
  | number text => exact absurd rfl (noNumber text)
  | mark text =>
    have listed : text ∈ closings := by simpa [endsOperand] using ends
    simp [grow?, noMark text listed]
  | behind delimiter contents sfx => simp [grow?, show startsWord '.' = false by decide]
  | blank | inside | escape | stuck => cases ends

/-- Behind a mark, a word starts a new token. -/
theorem grow?_mark_word {text : List Char} {c : Char} (starts : startsWord c = true) :
    (mark text).grow? c = none := by
  have noWord : ∀ m ∈ marks, ∀ d ∈ m, startsWord d = false := by decide
  have noMark : text ++ [c] ∉ marks := by
    intro listed
    have other := noWord _ listed c (by simp)
    rw [starts] at other
    cases other
  have noOther : c ≠ '/' ∧ c ≠ '*' := by
    refine ⟨?_, ?_⟩ <;> · rintro rfl; revert starts; decide
  simp [grow?, isDigit_eq_false_of_startsWord starts, noOther, noMark]

/-- Whatever comes next starts a new token. -/
def isFree : Pending → Bool
  | blank => true
  | mark [m] => decide (m ∈ separators)
  | _ => false

theorem grow?_free {p : Pending} (free : p.isFree = true) (c : Char) : p.grow? c = none := by
  have single : ∀ m ∈ separators, ∀ k ∈ marks, k.head? = some m → k.length = 1 := by decide +kernel
  have noOther : ∀ m ∈ separators, m ≠ '.' ∧ m ≠ '/' := by decide
  cases p with
  | blank => rfl
  | mark text =>
    match text with
    | [m] =>
      have separates : m ∈ separators := by simpa [isFree] using free
      have noMark : [m, c] ∉ marks := by
        intro listed
        have one := single m separates [m, c] listed rfl
        cases one
      simp [grow?, noOther m separates, noMark]
    | [] | _ :: _ :: _ => cases free
  | word | number | inside | escape | behind | stuck => cases free

end Pending

/-- What is being read at the end of a text. -/
def tailOf (text : String) : Pending := (Pending.blank.scan text.toList).2

/-- The text is read as the tokens. -/
def Spells (text : String) (ts : List Token) : Prop :=
  (tailOf text).isWhole = true ∧ (Pending.blank.scan text.toList).1 ++ (tailOf text).tokens = ts

instance (text : String) (ts : List Token) : Decidable (Spells text ts) :=
  inferInstanceAs (Decidable (_ ∧ _))

/-- The tokens of a text. -/
def lex? (text : String) : Option (List Token) :=
  if (tailOf text).isWhole then
    some ((Pending.blank.scan text.toList).1 ++ (tailOf text).tokens)
  else none

theorem lex?_eq_some_iff {text : String} {ts : List Token} :
    lex? text = some ts ↔ Spells text ts := by
  simp [lex?, Spells]

theorem Spells.unique {text : String} {ts us : List Token} (h : Spells text ts)
    (h' : Spells text us) : ts = us :=
  h.2.symm.trans h'.2

/-- The second text does not go on with the last token of the first. -/
def Joins (front back : String) : Prop :=
  ∀ c ∈ back.toList.head?, (tailOf front).grow? c = none

/-- The text starts with a separator. -/
def Splits (text : String) : Prop := ∃ c ∈ text.toList.head?, c ∈ Pending.separators

instance (text : String) : Decidable (Splits text) :=
  decidable_of_iff (text.toList.head?.any fun c => decide (c ∈ Pending.separators))
    (by cases h : text.toList.head? <;> simp [Splits, h])

section Append

variable {front back : String} {xs ys : List Token}

theorem Joins.scan_append (joins : Joins front back) (some : back ≠ "") :
    Pending.blank.scan (front ++ back).toList =
      ((Pending.blank.scan front.toList).1 ++
        ((tailOf front).tokens ++ (Pending.blank.scan back.toList).1), tailOf back) := by
  have nonempty : back.toList ≠ [] := by simpa using some
  unfold Joins at joins
  unfold tailOf at joins ⊢
  obtain ⟨c, rest, shape⟩ := List.exists_cons_of_ne_nil nonempty
  rw [shape] at joins ⊢
  rw [String.toList_append, shape, Pending.scan_append,
    Pending.scan_of_grow?_eq_none (joins c rfl)]

theorem Joins.tailOf_append (joins : Joins front back) (some : back ≠ "") :
    tailOf (front ++ back) = tailOf back := by
  rw [tailOf, joins.scan_append some]

/-- Two texts in a row. -/
theorem Spells.append (h : Spells front xs) (h' : Spells back ys) (joins : Joins front back) :
    Spells (front ++ back) (xs ++ ys) := by
  obtain ⟨whole, rfl⟩ := h'
  by_cases some : back = ""
  · subst some
    simpa [tailOf, Pending.tokens] using h
  · obtain ⟨-, rfl⟩ := h
    refine ⟨?_, ?_⟩
    · rw [joins.tailOf_append some]
      exact whole
    · rw [joins.tailOf_append some, joins.scan_append some]
      simp only [List.append_assoc]

theorem Joins.of_free (free : (tailOf front).isFree = true) : Joins front back :=
  fun c _ => Pending.grow?_free free c

theorem Joins.of_splits (h : Spells front xs) (splits : Splits back) : Joins front back := by
  obtain ⟨d, first, separates⟩ := splits
  intro c first'
  rw [Option.mem_unique first' first]
  exact Pending.grow?_separator h.1 separates

theorem Splits.ne_empty (splits : Splits back) : back ≠ "" := by
  rintro rfl
  obtain ⟨c, first, -⟩ := splits
  cases first

theorem Spells.free_append (h : Spells front xs) (h' : Spells back ys)
    (free : (tailOf front).isFree = true) : Spells (front ++ back) (xs ++ ys) :=
  h.append h' (.of_free free)

theorem Spells.append_splits (h : Spells front xs) (h' : Spells back ys) (splits : Splits back) :
    Spells (front ++ back) (xs ++ ys) :=
  h.append h' (.of_splits h splits)

theorem tailOf_append_splits (h : Spells front xs) (splits : Splits back) :
    tailOf (front ++ back) = tailOf back :=
  (Joins.of_splits h splits).tailOf_append splits.ne_empty

end Append

end CppPrinter
