import CppPrinter.Expr.Atom
import CppPrinter.Proofs.Reading.Atom
import Mathlib.Data.List.TakeWhile

/-!
# Texts of literals

A character or a string literal is one token, since whatever would end it early is escaped. A
number that is not negative is one token as well, and so is a double: its shortest decimal has a
first digit, and the sign of its exponent belongs to it.
-/

namespace CppPrinter

/-- The delimiters of literals. -/
def delimiters : List Char := ['\x22', '\x27']

namespace Pending

variable {delimiter c : Char}

/-- Behind a backslash comes anything but the end of a line. -/
theorem scan_backslash (delimits : delimiter ∈ delimiters) (inLine : c ≠ '\n')
    (contents rest : List Char) :
    (inside delimiter contents).scan ('\\' :: c :: rest) =
      (inside delimiter (contents ++ ['\\', c])).scan rest := by
  have noBackslash : ∀ d ∈ delimiters, '\\' ≠ d := by decide
  have escapes : (inside delimiter contents).next '\\' = ([], escape delimiter contents) := by
    simp [next, grow?, noBackslash delimiter delimits]
  have escaped : (escape delimiter contents).next c =
      ([], inside delimiter (contents ++ ['\\', c])) := by
    simp [next, grow?, inLine]
  rw [scan, escapes, scan, escaped]
  rfl

/-- A character that neither ends a literal nor escapes belongs to it. -/
theorem scan_contents (noDelimiter : c ≠ delimiter) (noBackslash : c ≠ '\\') (inLine : c ≠ '\n')
    (contents rest : List Char) :
    (inside delimiter contents).scan (c :: rest) = (inside delimiter (contents ++ [c])).scan rest := by
  have stays : (inside delimiter contents).next c = ([], inside delimiter (contents ++ [c])) := by
    simp [next, grow?, noDelimiter, noBackslash, inLine]
  rw [scan, stays]
  rfl

theorem octalDigit_mem (n : Nat) :
    octalDigit n ∈ ['0', '1', '2', '3', '4', '5', '6', '7'] := by
  have listed : ∀ k < 8, Char.ofNat (0x30 + k) ∈ ['0', '1', '2', '3', '4', '5', '6', '7'] := by
    decide
  exact listed (n % 8) (by omega)

theorem ne_newline_of_namedEscape? {code : Nat} {letter : Char}
    (named : namedEscape? code = some letter) : letter ≠ '\n' := by
  unfold namedEscape? at named
  split at named <;> cases named <;> decide

/-- The spelling of a character leads back between the delimiters. -/
theorem scan_escapeChar (delimits : delimiter ∈ delimiters) (c : Char) (contents : List Char) :
    ∃ contents', ∀ rest, (inside delimiter contents).scan (escapeChar delimiter c ++ rest) =
      (inside delimiter contents').scan rest := by
  have noControl : ∀ d ∈ delimiters, d ≠ '\n' := by decide
  have octal : ∀ d ∈ ['0', '1', '2', '3', '4', '5', '6', '7'],
      d ≠ '\n' ∧ d ≠ '\\' ∧ d ≠ '\x22' ∧ d ≠ '\x27' := by decide
  unfold escapeChar
  split
  · rename_i letter named
    exact ⟨_, scan_backslash delimits (ne_newline_of_namedEscape? named) contents⟩
  · rename_i unnamed
    have inLine : c ≠ '\n' := by
      rintro rfl
      cases unnamed
    split
    · exact ⟨_, scan_backslash delimits inLine contents⟩
    · rename_i plain
      obtain ⟨noBackslash, noDelimiter⟩ := not_or.1 plain
      split
      · have digit : ∀ n, octalDigit n ≠ '\n' ∧ octalDigit n ≠ '\\' ∧ octalDigit n ≠ delimiter := by
          intro n
          obtain ⟨h, h', double, single⟩ := octal _ (octalDigit_mem n)
          refine ⟨h, h', ?_⟩
          rintro rfl
          simp only [delimiters, List.mem_cons, List.not_mem_nil, or_false] at delimits
          exact delimits.elim double single
        refine ⟨contents ++ ['\\', octalDigit (c.toNat / 64)] ++ [octalDigit (c.toNat / 8)] ++
          [octalDigit c.toNat], ?_⟩
        intro rest
        rw [octalDigits, List.cons_append, List.cons_append,
          scan_backslash delimits (digit _).1, List.cons_append,
          scan_contents (digit _).2.2 (digit _).2.1 (digit _).1, List.cons_append,
          scan_contents (digit _).2.2 (digit _).2.1 (digit _).1, List.nil_append]
      · exact ⟨_, scan_contents noDelimiter noBackslash inLine contents⟩

/-- All characters of a literal lie between its delimiters. -/
theorem scan_escaped (delimits : delimiter ∈ delimiters) (cs contents : List Char) :
    ∃ contents', ∀ rest,
      (inside delimiter contents).scan (cs.flatMap (escapeChar delimiter) ++ rest) =
        (inside delimiter contents').scan rest := by
  induction cs generalizing contents with
  | nil => exact ⟨contents, fun rest => rfl⟩
  | cons c cs ih =>
    obtain ⟨first, scanned⟩ := scan_escapeChar delimits c contents
    obtain ⟨contents', scanned'⟩ := ih first
    refine ⟨contents', fun rest => ?_⟩
    rw [List.flatMap_cons, List.append_assoc, scanned, scanned']

/-- Letters behind a literal are its suffix. -/
theorem scan_suffix {letters : List Char} (h : ∀ c ∈ letters, startsWord c = true)
    (contents front : List Char) :
    (behind delimiter contents front).scan letters =
      ([], behind delimiter contents (front ++ letters)) := by
  induction letters generalizing front with
  | nil => simp
  | cons c letters ih =>
    have grows : (behind delimiter contents front).next c =
        ([], behind delimiter contents (front ++ [c])) := by
      simp [next, grow?, h c (List.mem_cons_self ..)]
    rw [scan, grows, ih fun d member => h d (List.mem_cons_of_mem c member)]
    simp

/-- A literal with its suffix is one token. -/
theorem scan_delimited (delimits : delimiter ∈ delimiters) (cs : List Char) {letters : List Char}
    (h : ∀ c ∈ letters, startsWord c = true) :
    ∃ contents, blank.scan (delimited delimiter cs ++ letters) =
      ([], behind delimiter contents letters) := by
  have opening : ∀ d ∈ delimiters, start d = inside d [] := by decide
  obtain ⟨contents, scanned⟩ := scan_escaped delimits cs []
  have closes : (inside delimiter contents).next delimiter = ([], behind delimiter contents []) := by
    simp [next, grow?]
  refine ⟨contents, ?_⟩
  rw [delimited, List.cons_append, blank_scan_cons, opening delimiter delimits, List.append_assoc,
    scanned, List.singleton_append, scan, closes, scan_suffix h]
  simp

end Pending

/-- A literal with its suffix is an operand. -/
theorem Phrase.delimited {delimiter : Char} (delimits : delimiter ∈ delimiters) (cs : List Char)
    {letters : List Char} (h : ∀ c ∈ letters, startsWord c = true) {text : String}
    (shape : text.toList = CppPrinter.delimited delimiter cs ++ letters) :
    ∃ contents, Phrase text [.literal delimiter contents (String.ofList letters)] := by
  have opening : ∀ d ∈ delimiters, startsOperand d = true := by decide
  obtain ⟨contents, scanned⟩ := Pending.scan_delimited delimits cs h
  rw [← shape] at scanned
  refine ⟨String.ofList contents, .single scanned rfl rfl ⟨delimiter, ?_, opening _ delimits⟩⟩
  rw [shape]
  rfl

section Decimal

theorem toString_of_nonneg {value : Int} (h : 0 ≤ value) :
    toString value = value.toNat.repr := by
  rw [Int.toString_eq_repr, Int.repr_eq_if, if_pos h]

theorem toString_of_neg {value : Int} (h : value < 0) :
    toString value = "-" ++ (-value).toNat.repr := by
  rw [Int.toString_eq_repr, Int.repr_eq_if, if_neg (by omega)]

/-- A number with an exponent is a number, the sign of the exponent included. -/
theorem IsNumeral.exponent {text : String} (h : IsNumeral text) (e : Int) :
    IsNumeral (text ++ ("e" ++ toString e)) := by
  by_cases positive : 0 ≤ e
  · obtain ⟨first, rest, shape, starts, digits⟩ := repr_digits e.toNat
    have allDigits : ∀ c ∈ first :: rest, c.isDigit = true :=
      List.forall_mem_cons.2 ⟨starts, digits⟩
    have shape' : ("e" ++ toString e).toList = ['e'] ++ first :: rest := by
      rw [toString_of_nonneg positive, String.toList_append, shape]
      rfl
    refine h.append ?_ ?_
    · rw [shape']
      exact List.forall_mem_cons.2 ⟨by decide, fun c member => inWord_of_isDigit (allDigits c member)⟩
    · rw [shape', atExponent_append (by simp)]
      exact atExponent_eq_false_of_digits fun c member => Or.inl (allDigits c member)
  · obtain ⟨first, rest, shape, starts⟩ := h.starts
    obtain ⟨digit, digits, shape', starts', digits'⟩ := repr_digits (-e).toNat
    have allDigits : ∀ c ∈ digit :: digits, c.isDigit = true :=
      List.forall_mem_cons.2 ⟨starts', digits'⟩
    have whole : (text ++ ("e" ++ toString e)).toList =
        text.toList ++ (['e', '-'] ++ digit :: digits) := by
      rw [toString_of_neg (by omega), String.toList_append, String.toList_append,
        String.toList_append, shape']
      rfl
    refine ⟨⟨first, rest ++ (['e', '-'] ++ digit :: digits), ?_, starts⟩, ?_, ?_⟩
    · rw [whole, shape, List.cons_append]
    · have mark : (Pending.number text.toList).next 'e' =
          ([], .number (text.toList ++ ['e'])) := by
        simp [Pending.next, Pending.grow?, show inWord 'e' = true by decide]
      have sign : (Pending.number (text.toList ++ ['e'])).next '-' =
          ([], .number (text.toList ++ ['e'] ++ ['-'])) := by
        have atMark : atExponent (text.toList ++ ['e']) = true := by
          rw [atExponent_append (by simp)]
          rfl
        simp [Pending.next, Pending.grow?, atMark]
      have behind : (Pending.number (text.toList ++ ['e'] ++ ['-'])).scan (digit :: digits) =
          ([], .number (text.toList ++ ['e'] ++ ['-'] ++ digit :: digits)) :=
        Pending.scan_number (fun c member => Or.inl (inWord_of_isDigit (allDigits c member))) _
      have exponent : (Pending.number text.toList).scan (['e', '-'] ++ digit :: digits) =
          ([], .number (text.toList ++ ['e'] ++ ['-'] ++ digit :: digits)) := by
        rw [List.cons_append, List.cons_append, List.nil_append, Pending.scan, mark, Pending.scan,
          sign, behind]
        rfl
      rw [whole, Pending.scan_append, h.scanned, exponent]
      simp
    · rw [whole, ← List.append_assoc, atExponent_append (by simp)]
      exact atExponent_eq_false_of_digits fun c member => Or.inl (allDigits c member)

/-- The decimal digits of a positive number hold one that is not zero. -/
theorem exists_digit_ne_zero {n : Nat} (positive : 0 < n) : ∃ c ∈ Nat.toDigits 10 n, c ≠ '0' := by
  have digit : ∀ k < 10, 0 < k → k.digitChar ≠ '0' := by decide
  induction n using Nat.strongRecOn with
  | ind n ih =>
    rw [Nat.toDigits_eq_if (by decide)]
    split
    · rename_i small
      exact ⟨_, List.mem_singleton_self _, digit n small positive⟩
    · have tenth : 0 < n / 10 := by omega
      obtain ⟨c, member, nonzero⟩ := ih (n / 10) (by omega) tenth
      exact ⟨c, List.mem_append_left _ member, nonzero⟩

namespace Decimal

theorem isDigit_of_mem_significant {d : Decimal} {c : Char} (member : c ∈ d.significant) :
    c.isDigit = true := by
  rw [significant, List.mem_reverse] at member
  have digit := (List.dropWhile_sublist _).subset member
  rw [List.mem_reverse] at digit
  exact Nat.isDigit_of_mem_toDigits (by decide) (by decide) digit

/-- A positive decimal has a digit that is printed. -/
theorem significant_ne_nil {d : Decimal} (positive : 0 < d.digits) : d.significant ≠ [] := by
  obtain ⟨c, member, nonzero⟩ := exists_digit_ne_zero positive
  intro empty
  rw [significant, List.reverse_eq_nil_iff, List.dropWhile_eq_nil_iff] at empty
  have zero := empty c (List.mem_reverse.2 member)
  exact nonzero (by simpa using zero)

section Layout

variable {digits : List Char} (some : digits ≠ []) (h : ∀ c ∈ digits, c.isDigit = true) (lead : Int)

include some h

/-- Digits with a point among them are a number. -/
theorem isNumeral_positional : IsNumeral (String.ofList (positional digits lead)) := by
  have zeros : ∀ k, ∀ c ∈ List.replicate k '0', c.isDigit = true := by
    intro k c member
    rw [List.eq_of_mem_replicate member]
    rfl
  unfold positional
  split
  · refine .ofDigits String.toList_ofList rfl ?_
    intro c member
    rcases List.mem_cons.1 member with rfl | member
    · exact Or.inr rfl
    · exact Or.inl ((List.mem_append.1 member).elim (zeros _ c) (h c))
  · obtain ⟨first, rest, rfl⟩ := List.exists_cons_of_ne_nil some
    have padded : ∀ k, ∀ c ∈ rest ++ List.replicate k '0', c.isDigit = true := by
      intro k c member
      rcases List.mem_append.1 member with old | zero
      · exact h c (List.mem_cons_of_mem first old)
      · exact zeros _ c zero
    simp only [List.cons_append, List.take_succ_cons, List.drop_succ_cons]
    refine .ofDigits String.toList_ofList (h first (List.mem_cons_self ..)) ?_
    intro c member
    rcases List.mem_append.1 member with whole | after
    · exact Or.inl (padded _ c (List.mem_of_mem_take whole))
    · rcases List.mem_cons.1 after with rfl | after
      · exact Or.inr rfl
      · left
        split at after
        · rw [List.mem_singleton.1 after]
          rfl
        · exact padded _ c (List.mem_of_mem_drop after)

/-- Digits with an exponent are a number. -/
theorem isNumeral_scientific : IsNumeral (String.ofList (scientific digits lead)) := by
  obtain ⟨first, rest, rfl⟩ := List.exists_cons_of_ne_nil some
  have point : ∀ c ∈ (if (first :: rest).length ≤ 1 then [] else '.' :: rest),
      c.isDigit = true ∨ c = '.' := by
    intro c member
    split at member
    · cases member
    · rcases List.mem_cons.1 member with rfl | digit
      · exact Or.inr rfl
      · exact Or.inl (h c (List.mem_cons_of_mem first digit))
  have mantissa : IsNumeral
      (String.ofList (first :: if (first :: rest).length ≤ 1 then [] else '.' :: rest)) :=
    .ofDigits String.toList_ofList (h first (List.mem_cons_self ..)) point
  have shape : String.ofList (scientific (first :: rest) lead) =
      String.ofList (first :: if (first :: rest).length ≤ 1 then [] else '.' :: rest) ++
        ("e" ++ toString lead) := by
    rw [← String.toList_inj]
    simp [scientific]
  rw [shape]
  exact mantissa.exponent lead

end Layout

/-- The text of a positive decimal is a number. -/
theorem isNumeral_text {d : Decimal} (positive : 0 < d.digits) :
    IsNumeral (String.ofList d.text) := by
  unfold text
  split
  · exact isNumeral_positional (significant_ne_nil positive) (fun _ => isDigit_of_mem_significant) _
  · exact isNumeral_scientific (significant_ne_nil positive) (fun _ => isDigit_of_mem_significant) _

end Decimal

namespace Binary64

theorem significand_pos {x : Binary64} (nonzero : x.isZero = false) : 0 < x.significand := by
  have magnitude : x.magnitudeBits ≠ 0 := by simpa [isZero] using nonzero
  unfold significand
  split
  · rename_i subnormal
    rw [biasedExponent, Nat.div_eq_zero_iff] at subnormal
    rw [fraction, Nat.mod_eq_of_lt (subnormal.resolve_left (by decide))]
    omega
  · have leading : 0 < leadingBit := by decide
    omega

theorem interval_pos {x : Binary64} (nonzero : x.isZero = false) :
    0 < x.interval.low ∧ 0 < x.interval.value := by
  have significand := significand_pos nonzero
  have power : ∀ k, 0 < Nat.pow 2 k := fun k => Nat.pow_pos (by decide)
  refine ⟨Nat.mul_pos ?_ (power _), Nat.mul_pos (by omega) (power _)⟩
  split <;> omega

/-- Zero does not round to a double that is not zero. -/
theorem contains_zero {x : Binary64} (nonzero : x.isZero = false) {d : Nat} (denominator : 0 < d) :
    x.interval.contains 0 d = false := by
  have low : 0 < x.interval.low * d := Nat.mul_pos (interval_pos nonzero).1 denominator
  unfold Interval.contains
  rw [Nat.zero_mul]
  split
  · rw [decide_eq_false (Nat.not_le.2 low), Bool.false_and]
  · rw [decide_eq_false (Nat.not_lt_zero _), Bool.false_and]

theorem gridPoint_pos {x : Binary64} (nonzero : x.isZero = false) {scale : Int} {d : Decimal}
    (found : gridPoint x.interval scale = some d) : 0 < d.digits := by
  have denominator : 0 < (tenPow scale).2 := Nat.pow_pos (by decide)
  have lower {below : Nat}
      (contained : x.interval.contains (below * (tenPow scale).1) (tenPow scale).2 = true) :
      0 < below := by
    by_contra zero
    rw [Nat.eq_zero_of_not_pos zero, Nat.zero_mul, contains_zero nonzero denominator] at contained
    cases contained
  unfold gridPoint at found
  simp only at found
  split at found
  · rename_i contained _
    cases found
    have positive := lower contained
    dsimp only
    split <;> omega
  · rename_i contained _
    cases found
    exact lower contained
  · cases found
    exact Nat.succ_pos _
  · cases found

/-- The shortest decimal of a double that is not zero is not zero. -/
theorem shortest_pos {x : Binary64} (nonzero : x.isZero = false) : 0 < x.shortest.digits := by
  unfold shortest
  simp only
  cases found : (List.range 17).findSome? fun (n : Nat) =>
      gridPoint x.interval (leadingExponent x.interval.value x.interval.unit - n) with
  | none => exact (interval_pos nonzero).2
  | some d =>
    obtain ⟨n, -, atGrid⟩ := List.exists_of_findSome?_eq_some found
    exact gridPoint_pos nonzero atGrid

/-- The text of a double is a number, with a sign in front of it where the double is negative. -/
theorem text_eq (x : Binary64) : ∃ magnitude, IsNumeral magnitude ∧
    x.text = if x.isNegative then "-" ++ magnitude else magnitude := by
  refine ⟨if x.isZero then "0.0" else String.ofList x.shortest.text, ?_, rfl⟩
  by_cases zero : x.isZero = true
  · rw [if_pos zero]
    have shape : "0.0".toList = '0' :: ['.', '0'] := rfl
    exact .ofDigits shape rfl (by decide)
  · rw [if_neg zero]
    exact Decimal.isNumeral_text (shortest_pos (by simpa using zero))

end Binary64

end Decimal

namespace Literal

/-- The literal is a number. -/
def isNumber : Literal → Bool
  | int _ | double _ => true
  | _ => false

/-- The text of the literal starts with a sign. -/
def isNegative : Literal → Bool
  | int value => decide (value.toInt < 0)
  | double value => value.isNegative
  | _ => false

/-- The text of a number is its magnitude, with a sign in front of it where the number is
negative. -/
theorem text_eq_of_isNumber {value : Literal} (isNumber : value.isNumber = true) {text : String}
    (printed : value.text = .ok text) : ∃ magnitude, IsNumeral magnitude ∧
      text = if value.isNegative then "-" ++ magnitude else magnitude := by
  cases value with
  | null | bool | string => cases isNumber
  | double value =>
    obtain ⟨magnitude, numeral, shape⟩ := value.text_eq
    rw [Literal.text] at printed
    split at printed
    · cases printed
      exact ⟨magnitude, numeral, shape⟩
    · cases printed
  | int value =>
    have letters (digits : String) (h : IsNumeral digits) : IsNumeral (digits ++ "LL") :=
      h.append (by decide) (by decide)
    simp only [Literal.text, Except.ok.injEq] at printed
    subst printed
    by_cases negative : value.toInt < 0
    · rw [toString_of_neg negative]
      have digits := IsNumeral.decimal (-value.toInt).toNat
      split
      · exact ⟨_, digits, by simp [isNegative, negative]⟩
      · exact ⟨_, letters _ digits, by simp [isNegative, negative, String.append_assoc]⟩
    · rw [toString_of_nonneg (by omega)]
      have digits := IsNumeral.decimal value.toInt.toNat
      split
      · exact ⟨_, digits, by simp [isNegative, negative]⟩
      · exact ⟨_, letters _ digits, by simp [isNegative, negative]⟩

end Literal

end CppPrinter
