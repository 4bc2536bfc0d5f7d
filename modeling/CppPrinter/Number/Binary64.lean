/-!
# Double-precision numbers by their bits

A double is its bit pattern of 64 bits: a sign, eleven bits of exponent and 52 bits of fraction.
Keeping the bits makes equality decidable and tells apart zeros of different sign and the values
that are not numbers. The magnitude of a finite double is `significand * 2 ^ exponent`.
-/

namespace CppPrinter

/-- A double-precision number. -/
structure Binary64 where
  bits : UInt64
  deriving DecidableEq, Repr

namespace Binary64

/-- The sign bit alone, `2 ^ 63`. -/
def signBit : Nat := 0x8000000000000000

/-- The bit above the fraction, `2 ^ 52`, which a significand has but does not store. -/
def leadingBit : Nat := 0x10000000000000

/-- The bits below the sign, as a number. -/
def magnitudeBits (x : Binary64) : Nat := x.bits.toNat % signBit

/-- The sign bit is set. -/
def isNegative (x : Binary64) : Bool := decide (signBit ≤ x.bits.toNat)

/-- The stored exponent, from 0 to 2047. -/
def biasedExponent (x : Binary64) : Nat := x.magnitudeBits / leadingBit

/-- The stored bits of the fraction. -/
def fraction (x : Binary64) : Nat := x.magnitudeBits % leadingBit

/-- All but the largest stored exponent belong to finite numbers. -/
def isFinite (x : Binary64) : Bool := decide (x.biasedExponent < 2047)

/-- A zero of either sign. -/
def isZero (x : Binary64) : Bool := x.magnitudeBits == 0

/-- The integer that the exponent scales: the leading bit is implied unless the stored exponent is
zero. -/
def significand (x : Binary64) : Nat :=
  if x.biasedExponent = 0 then x.fraction else leadingBit + x.fraction

/-- The power of two that scales the significand. -/
def exponent (x : Binary64) : Int := max x.biasedExponent 1 - 1075

/-- The double below a power of two lies at half the usual distance, except where the distance is
the smallest there is. -/
def isNarrowBelow (x : Binary64) : Bool := x.fraction == 0 && decide (1 < x.biasedExponent)

/-- The words for a value that is not finite. -/
def nonFiniteText (x : Binary64) : String :=
  if x.fraction ≠ 0 then "NaN" else if x.isNegative then "-inf" else "inf"

end Binary64

end CppPrinter
