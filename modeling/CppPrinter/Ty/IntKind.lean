import CppPrinter.Error.Basic

/-!
# Integer kinds

The six sized integers that can be spelled (`IntKind`), their promotion to the width of arithmetic,
and the relation of a slot that cannot hold every value of another kind (`IntKind.isNarrower`).
-/

namespace CppPrinter

/-- The sized integers that can be spelled. -/
inductive IntKind where
  | i8
  | u8
  | i16
  | u16
  | i32
  | i64
  deriving DecidableEq, Repr

namespace IntKind

/-- The kind of an integer type. The wide unsigned types have none. -/
def of (int : IntegerType) : Rendered IntKind :=
  match int.width, int.signed with
  | .w8, true => .ok i8
  | .w8, false => .ok u8
  | .w16, true => .ok i16
  | .w16, false => .ok u16
  | .w32, true => .ok i32
  | .w64, true => .ok i64
  | width, false => unsupported (.unsignedInteger width.bits)

/-- The kind in which arithmetic is done: whatever is narrower than 32 bits widens to `i32`. -/
def promoted : IntKind → IntKind
  | i64 => i64
  | _ => i32

/-- The kind, promoted on demand. -/
def promotedIf (k : IntKind) (promote : Bool) : IntKind := if promote then k.promoted else k

/-- The spelling as a type of fixed width. -/
def spelling : IntKind → String
  | i8 => "int8_t"
  | u8 => "uint8_t"
  | i16 => "int16_t"
  | u16 => "uint16_t"
  | i32 => "int32_t"
  | i64 => "int64_t"

/-- A slot of kind `left` loses values of kind `right`. -/
def isNarrower : IntKind → IntKind → Bool
  | i8, right => right != i8
  | u8, right => right != u8
  | i16, right => right == u16 || right == i32 || right == i64
  | u16, right => right == i16 || right == i32 || right == i64
  | i32, right => right == i64
  | i64, _ => false

/-- The mask with all bits of the kind, for the kinds narrower than an operand of 64 bits. -/
def fullMask? : IntKind → Option Int64
  | i8 | u8 => some 0xFF
  | i16 | u16 => some 0xFFFF
  | i32 => some 0xFFFFFFFF
  | i64 => none

end IntKind

/-- The integer kind of a type, if it is an integer type at all. -/
def Ty.intKind? (ty : Ty) (promote : Bool) : Rendered (Option IntKind) :=
  match ty.integer? with
  | none => .ok none
  | some int => do return some ((← IntKind.of int).promotedIf promote)

end CppPrinter
