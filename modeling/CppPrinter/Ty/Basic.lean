/-!
# Types of the printed program

Classes, enumerations and expressions are named by their position in the program's tables
(`ClassId`, `EnumId`, `ExprId`). A type (`Ty`) is fully resolved: sized integers, floating types,
strings, arrays behind a pointer or stored inline, pointers to classes with an ownership, class
values and enumerations.
-/

namespace CppPrinter

/-- The position of a class in the program. -/
structure ClassId where
  index : Nat
  deriving DecidableEq, Repr

/-- The position of an enumeration in the program. -/
structure EnumId where
  index : Nat
  deriving DecidableEq, Repr

/-- The position of an expression in the program's arena. -/
structure ExprId where
  index : Nat
  deriving DecidableEq, Repr

/-- The widths an integer type can have. -/
inductive IntWidth where
  | w8
  | w16
  | w32
  | w64
  deriving DecidableEq, Repr

/-- The number of bits of a width. -/
def IntWidth.bits : IntWidth → Nat
  | w8 => 8
  | w16 => 16
  | w32 => 32
  | w64 => 64

/-- A sized integer type. -/
structure IntegerType where
  width : IntWidth
  signed : Bool
  deriving DecidableEq, Repr

/-- The signed integer of 64 bits. -/
def IntegerType.i64 : IntegerType := ⟨.w64, true⟩

/-- Who owns what an array or class pointer points to. -/
inductive Ownership where
  /-- Someone else owns it, and it is only read. -/
  | readOnly
  /-- Someone else owns it, and it may be written. -/
  | writable
  /-- Every holder owns it together with the others. -/
  | shared
  deriving DecidableEq, Repr

/-- Whether a string owns its bytes. -/
inductive StringKind where
  | view
  | owned
  deriving DecidableEq, Repr

/-- A resolved type. -/
inductive Ty where
  | void
  | bool
  | integer (int : IntegerType)
  | float
  | double
  /-- A double that is known to hold an integer, such as the result of truncation. -/
  | floatInt
  | string (kind : StringKind)
  | arrayPtr (ownership : Ownership) (element : Ty)
  | arrayStorage (element : Ty) (length : Nat)
  | classPtr (ownership : Ownership) (pointee : ClassId)
  | classValue (stored : ClassId)
  | enum (enumeration : EnumId)
  /-- The type of the null literal. -/
  | null
  deriving DecidableEq, Repr

namespace Ty

/-- The signed integer of 32 bits, to which offsets, counts and lengths are converted. -/
def i32 : Ty := .integer ⟨.w32, true⟩

/-- The integer type, if this is one. -/
def integer? : Ty → Option IntegerType
  | .integer int => some int
  | _ => none

def isString : Ty → Bool
  | .string _ => true
  | _ => false

def isArray : Ty → Bool
  | .arrayPtr .. | .arrayStorage .. => true
  | _ => false

def isArrayStorage : Ty → Bool
  | .arrayStorage .. => true
  | _ => false

def isClassPtr : Ty → Bool
  | .classPtr .. => true
  | _ => false

/-- The class that a class pointer points to. -/
def pointee? : Ty → Option ClassId
  | .classPtr _ c => some c
  | _ => none

/-- The type of an array's elements, however the array is held. -/
def element? : Ty → Option Ty
  | .arrayPtr _ element | .arrayStorage element _ => some element
  | _ => none

/-- The class whose full definition a value of this type needs: arrays are stripped down to their
elements, while a pointer to a class needs no definition of it. -/
def baseClass : Ty → Option ClassId
  | .classValue c => some c
  | .arrayPtr _ element | .arrayStorage element _ => element.baseClass
  | _ => none

end Ty

end CppPrinter
