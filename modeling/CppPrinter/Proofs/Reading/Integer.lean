import CppPrinter.Proofs.Expr.Tree
import CppPrinter.Proofs.Number.Kind
import CppPrinter.Proofs.Reading.Literal

/-!
# What integer literals stand for

A literal has no sign: a negative constant is an operator in front of the literal of its magnitude
(`readConstant?`), and the magnitude has to fit a type of the literal by itself. The suffix says which
types there are, and the literal takes the first that holds its value (`readInteger?`). A printed
integer is read back except for the least one, whose magnitude no type holds
(`integer_kept_iff_not_least`).
-/

namespace CppPrinter

/-! ### Reading -/

/-- The types that an integer literal may take. -/
inductive LiteralType where
  | int
  | long
  | longLong
  deriving DecidableEq, Repr

/-- The kind of the values of a type. -/
def LiteralType.kind : LiteralType → IntKind
  | int => .i32
  | long | longLong => .i64

/-- The types that a decimal literal with this suffix may take, in the order in which they are tried. -/
def literalTypes : List Char → List LiteralType
  | [] => [.int, .long]
  | ['L', 'L'] => [.longLong]
  | _ => []

/-- The first of these types that holds a number. -/
def literalType? (sfx : List Char) (n : Nat) : Option LiteralType :=
  (literalTypes sfx).find? fun t => t.kind.Holds n

/-- The number that digits spell. Digits behind a zero are not decimal. -/
def decimalValue? (digits : List Char) : Option Nat :=
  if digits = [] then none
  else if digits.head? = some '0' ∧ digits ≠ ['0'] then none
  else some (Nat.ofDigitChars 10 digits 0)

/-- An integer literal: its type and its value. -/
def readInteger? (cs : List Char) : Option (LiteralType × Int) :=
  (decimalValue? (cs.takeWhile Char.isDigit)).bind fun n =>
    (literalType? (cs.dropWhile Char.isDigit) n).map fun t => (t, (n : Int))

/-- An integer constant: a literal, or the negative of one, which has the type of the literal and must not
overflow it. -/
def readConstant? : List Char → Option (LiteralType × Int)
  | '-' :: cs => do
    let (t, n) ← readInteger? cs
    if t.kind.Holds (-n) then some (t, -n) else none
  | cs => readInteger? cs

example : readConstant? "-2147483648".toList = some (.long, -2147483648) := by decide

example : readConstant? "007".toList = none := by decide

theorem literalType?_holds {sfx : List Char} {n : Nat} {t : LiteralType}
    (found : literalType? sfx n = some t) : t.kind.Holds n := by
  have holds := List.find?_some found
  exact of_decide_eq_true holds

/-- A literal has a type if any type of its suffix holds its value. -/
theorem exists_literalType?_iff {sfx : List Char} {n : Nat} :
    (∃ t, literalType? sfx n = some t) ↔ ∃ t ∈ literalTypes sfx, t.kind.Holds n := by
  rw [← Option.isSome_iff_exists, literalType?, List.find?_isSome]
  simp only [decide_eq_true_eq]

/-! ### Digits -/

/-- No number but zero starts with a zero. -/
theorem head?_toDigits_ne_zero {n : Nat} (positive : 0 < n) : (Nat.toDigits 10 n).head? ≠ some '0' := by
  have digit : ∀ k < 10, 0 < k → k.digitChar ≠ '0' := by decide
  induction n using Nat.strongRecOn with
  | ind n ih =>
    rw [Nat.toDigits_eq_if (by decide)]
    split
    · rename_i small
      simpa using digit n small positive
    · rw [List.head?_append_of_ne_nil _ Nat.toDigits_ne_nil]
      exact ih (n / 10) (by omega) (by omega)

theorem decimalValue?_toDigits (n : Nat) : decimalValue? (Nat.toDigits 10 n) = some n := by
  have decimal : ¬ ((Nat.toDigits 10 n).head? = some '0' ∧ Nat.toDigits 10 n ≠ ['0']) := by
    rintro ⟨zero, more⟩
    rcases Nat.eq_zero_or_pos n with rfl | positive
    · exact more rfl
    · exact head?_toDigits_ne_zero positive zero
  rw [decimalValue?, if_neg Nat.toDigits_ne_nil, if_neg decimal, Nat.ofDigitChars_ten_toDigits]

/-- The literal of a number with a suffix takes the first type of the suffix that holds the number. -/
theorem readInteger?_digits (n : Nat) {sfx : List Char} (letters : sfx.takeWhile Char.isDigit = []) :
    readInteger? (Nat.toDigits 10 n ++ sfx) =
      (literalType? sfx n).map fun t => (t, (n : Int)) := by
  have digits : ∀ c ∈ Nat.toDigits 10 n, c.isDigit = true := fun c member =>
    Nat.isDigit_of_mem_toDigits (by decide) (by decide) member
  have rest : sfx.dropWhile Char.isDigit = sfx := by
    have whole := List.takeWhile_append_dropWhile (p := Char.isDigit) (l := sfx)
    rwa [letters, List.nil_append] at whole
  rw [readInteger?, List.takeWhile_append_of_pos digits, List.dropWhile_append_of_pos digits, letters,
    rest, List.append_nil, decimalValue?_toDigits, Option.bind_some]

/-- A type that holds a magnitude holds its negative, so the sign never overflows. -/
theorem LiteralType.holds_neg {t : LiteralType} {n : Nat} (holds : t.kind.Holds n) :
    t.kind.Holds (-n) := by
  obtain ⟨-, below⟩ := holds
  have symmetric : t.kind.least ≤ -t.kind.greatest ∧ 0 ≤ t.kind.greatest := by
    cases t <;> decide
  constructor <;> omega

/-- A printed integer with a suffix is read as itself, if a type of the suffix holds its magnitude. -/
theorem readConstant?_toString (v : Int) {sfx : List Char} (letters : sfx.takeWhile Char.isDigit = []) :
    readConstant? ((toString v).toList ++ sfx) =
      (literalType? sfx v.natAbs).map fun t => (t, v) := by
  by_cases negative : v < 0
  · have magnitude : (-v).toNat = v.natAbs := by omega
    have value : -(v.natAbs : Int) = v := by omega
    rw [toString_of_neg negative, String.toList_append, Nat.toList_repr, magnitude]
    change (readInteger? (Nat.toDigits 10 v.natAbs ++ sfx)).bind _ = _
    rw [readInteger?_digits _ letters]
    cases found : literalType? sfx v.natAbs with
    | none => rfl
    | some t =>
      have noOverflow := LiteralType.holds_neg (literalType?_holds found)
      rw [Option.map_some, Option.bind_some]
      dsimp only
      rw [if_pos noOverflow, value, Option.map_some]
  · have magnitude : v.toNat = v.natAbs := by omega
    have value : (v.natAbs : Int) = v := by omega
    obtain ⟨first, rest, shape, digit, -⟩ := repr_digits v.natAbs
    have noSign : first ≠ '-' := by
      rintro rfl
      cases digit
    have unsigned : readConstant? (v.natAbs.repr.toList ++ sfx) =
        readInteger? (v.natAbs.repr.toList ++ sfx) := by
      rw [shape, List.cons_append, readConstant?.eq_2]
      rintro cs same
      exact noSign (List.cons.inj same).1
    rw [toString_of_nonneg (by omega), magnitude, unsigned, Nat.toList_repr,
      readInteger?_digits _ letters, value]

/-! ### Printed integers -/

/-- The suffix of an integer literal. -/
def literalSuffix (v : Int) : String := if isPlainInt v then "" else "LL"

theorem Literal.text_int (v : Int64) :
    (Literal.int v).text = .ok (toString v.toInt ++ literalSuffix v.toInt) := by
  rw [Literal.text, literalSuffix]
  split <;> simp

/-- The suffix leaves a type for every magnitude but that of the least integer. -/
theorem exists_literalType?_suffix_iff {v : Int} (least : -0x8000000000000000 ≤ v)
    (greatest : v < 0x8000000000000000) :
    (∃ t, literalType? (literalSuffix v).toList v.natAbs = some t) ↔ v ≠ -0x8000000000000000 := by
  rw [exists_literalType?_iff, literalSuffix]
  split
  · rename_i plain
    simp only [isPlainInt, Bool.and_eq_true, decide_eq_true_eq] at plain
    have inLong : LiteralType.long.kind.Holds v.natAbs := by
      simp only [LiteralType.kind, IntKind.Holds, IntKind.least, IntKind.greatest]
      omega
    exact ⟨fun _ => by omega, fun _ => ⟨.long, by decide, inLong⟩⟩
  · have types : literalTypes "LL".toList = [.longLong] := rfl
    simp only [types, List.mem_singleton, exists_eq_left, LiteralType.kind, IntKind.Holds,
      IntKind.least, IntKind.greatest]
    omega

/-- An integer is printed as one text wherever it stands. The text is a constant of the value of the integer
whose literal fits a type of its own, unless the integer is the least of 64 bits: then no type holds the
literal, and the text is no constant. -/
theorem integer_kept_iff_not_least (v : Int64) : ∃ text,
    (∀ scope ty position,
      (Expr.node ⟨.literal (.int v), ty⟩).text scope .plain position = .ok text) ∧
    ((∃ t, readConstant? text.toList = some (t, v.toInt)) ↔ v ≠ Int64.minValue) ∧
    (v = Int64.minValue → readConstant? text.toList = none) := by
  have least : v ≠ Int64.minValue ↔ v.toInt ≠ -0x8000000000000000 :=
    not_congr Int64.toInt_inj.symm
  have letters : (literalSuffix v.toInt).toList.takeWhile Char.isDigit = [] := by
    unfold literalSuffix
    split <;> rfl
  refine ⟨_, fun scope ty position => Literal.text_int v, ?_⟩
  rw [String.toList_append, readConstant?_toString _ letters, least,
    ← exists_literalType?_suffix_iff v.le_toInt v.toInt_lt]
  cases found : literalType? (literalSuffix v.toInt).toList v.toInt.natAbs with
  | none => simp
  | some t =>
    refine ⟨by simp, fun same => ?_⟩
    have fits := (exists_literalType?_suffix_iff v.le_toInt v.toInt_lt).1 ⟨t, found⟩
    exact absurd same (least.2 fits)

/-- The literal behind the sign of the least integer fits no type. -/
theorem least_integer_too_wide :
    (Literal.int Int64.minValue).text = .ok "-9223372036854775808LL" ∧
      readConstant? "-9223372036854775808LL".toList = none :=
  ⟨rfl, by decide⟩

end CppPrinter
