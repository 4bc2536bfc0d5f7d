import CppPrinter.Number.Binary64

/-!
# Shortest decimal text of a double

`Binary64.shortest` gives the fewest decimal digits that read back as the double, and of those the
nearest to it. All comparisons are made on integers: the reals that round to a double form an
interval around it, scaled here to whole numbers (`Interval`), and for one digit after the other
the two neighbours of the double on the decimal grid are tested against that interval.
`Binary64.text` lays the digits out, positionally for moderate exponents and with an exponent mark
beyond them.
-/

namespace CppPrinter

/-- A decimal number `digits * 10 ^ scale`. -/
structure Decimal where
  digits : Nat
  scale : Int
  deriving DecidableEq, Repr

/-- The reals that round to a double, over the common denominator `unit`: from `low` to `high`
around `value`, the ends included exactly when `closed`. -/
structure Interval where
  low : Nat
  value : Nat
  high : Nat
  unit : Nat
  closed : Bool
  deriving Repr

namespace Interval

/-- Membership of the fraction `n / d`, where `d` is positive. -/
def contains (i : Interval) (n d : Nat) : Bool :=
  if i.closed then decide (i.low * d ≤ n * i.unit) && decide (n * i.unit ≤ i.high * d)
  else decide (i.low * d < n * i.unit) && decide (n * i.unit < i.high * d)

end Interval

/-- The number of decimal digits of a positive number. -/
def decimalLength (n : Nat) : Nat := (Nat.toDigits 10 n).length

/-- The exponent of the leading decimal digit of the positive fraction `n / d`: the largest `e`
with `10 ^ e ≤ n / d`. -/
def leadingExponent (n d : Nat) : Int :=
  if d ≤ n then (decimalLength (n / d) : Int) - 1
  else -(decimalLength ((d + n - 1) / n - 1) : Int)

/-- A power of ten as a fraction. -/
def tenPow (e : Int) : Nat × Nat :=
  (Nat.pow 10 e.toNat, Nat.pow 10 (-e).toNat)

namespace Binary64

/-- The interval of a finite double that is not zero. Four units to the significand's last place
keep the middle between neighbours whole. -/
def interval (x : Binary64) : Interval :=
  let up := Nat.pow 2 (x.exponent - 2).toNat
  let m := 4 * x.significand
  { low := (m - if x.isNarrowBelow then 1 else 2) * up
    value := m * up
    high := (m + 2) * up
    unit := Nat.pow 2 (2 - x.exponent).toNat
    closed := x.significand % 2 == 0 }

/-- The better of the two neighbours of the double on the grid of step `10 ^ scale`, if one of
them reads back: the nearer one, and the upper one when both are equally near. -/
def gridPoint (i : Interval) (scale : Int) : Option Decimal :=
  let (p, q) := tenPow scale
  let below := i.value * q / (i.unit * p)
  let above := below + 1
  let rest := 2 * (i.value * q - below * (i.unit * p))
  match i.contains (below * p) q, i.contains (above * p) q with
  | true, true => some ⟨if rest < i.unit * p then below else above, scale⟩
  | true, false => some ⟨below, scale⟩
  | false, true => some ⟨above, scale⟩
  | false, false => none

/-- The shortest decimal of a finite double that is not zero. Seventeen digits always suffice. -/
def shortest (x : Binary64) : Decimal :=
  let i := x.interval
  let lead := leadingExponent i.value i.unit
  ((List.range 17).findSome? fun (n : Nat) => gridPoint i (lead - n)).getD ⟨i.value, 0⟩

end Binary64

namespace Decimal

/-- The significant digits, without zeros at the end. -/
def significant (d : Decimal) : List Char :=
  ((Nat.toDigits 10 d.digits).reverse.dropWhile (· == '0')).reverse

/-- The exponent of the leading digit. -/
def lead (d : Decimal) : Int := d.scale + decimalLength d.digits - 1

/-- Digits with a point among or around them, and at least one digit on either side of it. -/
def positional (digits : List Char) (lead : Int) : List Char :=
  if lead < 0 then
    '0' :: '.' :: List.replicate (-lead - 1).toNat '0' ++ digits
  else
    let whole := lead.toNat + 1
    let padded := digits ++ List.replicate (whole - digits.length) '0'
    let after := padded.drop whole
    padded.take whole ++ '.' :: if after.isEmpty then ['0'] else after

/-- Digits with the point after the first of them and the exponent behind the mark `e`. -/
def scientific (digits : List Char) (lead : Int) : List Char :=
  digits.take 1 ++ (if digits.length ≤ 1 then [] else '.' :: digits.drop 1) ++
    'e' :: (toString lead).toList

/-- The decimal in positional notation from `10 ^ -4` up to `10 ^ 16`, and with an exponent outside
that range. -/
def text (d : Decimal) : List Char :=
  if -4 ≤ d.lead ∧ d.lead < 16 then positional d.significant d.lead
  else scientific d.significant d.lead

end Decimal

/-- The text of a finite double, which always has a point or an exponent mark. -/
def Binary64.text (x : Binary64) : String :=
  let magnitude := if x.isZero then "0.0" else String.ofList x.shortest.text
  if x.isNegative then "-" ++ magnitude else magnitude

end CppPrinter
