import CppPrinter.Ty.IntKind

/-!
# Values of the integer kinds

A kind holds the values between two bounds (`IntKind.Holds`). A conversion to it keeps the low bits of an
integer and reads them with or without a sign (`IntKind.convert`), so two conversions give one value
exactly when the low bits are the same (`IntKind.convert_eq_iff`).
-/

namespace CppPrinter

namespace IntKind

/-- The number of bits of a kind. -/
def bits : IntKind → Nat
  | i8 | u8 => 8
  | i16 | u16 => 16
  | i32 => 32
  | i64 => 64

def isSigned : IntKind → Bool
  | u8 | u16 => false
  | _ => true

/-- The value of an integer converted to the kind: its residue modulo two to the number of bits, read
with or without a sign. -/
def convert (k : IntKind) (v : Int) : Int :=
  if k.isSigned then (BitVec.ofInt k.bits v).toInt else (BitVec.ofInt k.bits v).toNat

theorem bits_le (k : IntKind) : k.bits ≤ 64 := by
  cases k <;> decide

/-- A conversion depends on the low bits alone, and shows all of them. -/
theorem convert_eq_iff (k : IntKind) {u v : Int} :
    k.convert u = k.convert v ↔ BitVec.ofInt k.bits u = BitVec.ofInt k.bits v := by
  unfold convert
  split
  · exact BitVec.toInt_inj
  · rw [Int.natCast_inj, BitVec.toNat_inj]

/-- The least value of a kind. -/
def least : IntKind → Int
  | i8 => -0x80
  | i16 => -0x8000
  | i32 => -0x80000000
  | i64 => -0x8000000000000000
  | u8 | u16 => 0

/-- The greatest value of a kind. -/
def greatest : IntKind → Int
  | i8 => 0x7F
  | u8 => 0xFF
  | i16 => 0x7FFF
  | u16 => 0xFFFF
  | i32 => 0x7FFFFFFF
  | i64 => 0x7FFFFFFFFFFFFFFF

/-- The value is one of the kind. -/
def Holds (k : IntKind) (v : Int) : Prop := k.least ≤ v ∧ v ≤ k.greatest

instance (k : IntKind) (v : Int) : Decidable (k.Holds v) := by
  unfold Holds
  infer_instance

/-- A slot holds all values of another kind if it holds the least and the greatest. -/
theorem exists_lost_iff (slot source : IntKind) :
    (∃ v, source.Holds v ∧ ¬ slot.Holds v) ↔
      ¬ (slot.Holds source.least ∧ slot.Holds source.greatest) := by
  have ordered : source.least ≤ source.greatest := by cases source <;> decide
  constructor
  · rintro ⟨v, ⟨above, below⟩, lost⟩ ⟨⟨low, -⟩, -, high⟩
    exact lost ⟨Int.le_trans low above, Int.le_trans below high⟩
  · intro lost
    by_cases low : slot.Holds source.least
    · exact ⟨source.greatest, ⟨ordered, Int.le_refl _⟩, fun high => lost ⟨low, high⟩⟩
    · exact ⟨source.least, ⟨Int.le_refl _, ordered⟩, low⟩

end IntKind

end CppPrinter
