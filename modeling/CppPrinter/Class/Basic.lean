import CppPrinter.Stmt.Basic

/-!
# Classes and enumerations

A class has constants, fields and methods, each seen from as far as its visibility allows. What a
caller must know of a method is its `Signature`; the method adds a body.
-/

namespace CppPrinter

/-- From where a member can be used. -/
inductive Visibility where
  | everywhere
  /-- In the class and the classes derived from it. -/
  | descendants
  /-- In the compilation unit. -/
  | unit
  /-- In the class alone. -/
  | ownClass
  deriving DecidableEq, Repr

/-- How a class may be instantiated and extended. -/
inductive ClassKind where
  | normal
  /-- Holds static members only and is never instantiated. -/
  | static
  /-- Instantiated only as part of a derived class. -/
  | abstract
  /-- Nothing derives from it. -/
  | sealed
  deriving DecidableEq, Repr

/-- How a call finds the body of a method. -/
inductive Dispatch where
  | static
  | normal
  | abstract
  | virtual
  | override
  | sealed
  deriving DecidableEq, Repr

/-- A parameter of a method. -/
structure Param where
  name : String
  ty : Ty
  deriving DecidableEq, Repr

/-- What callers know of a method. -/
structure Signature where
  name : String
  visibility : Visibility
  dispatch : Dispatch
  /-- The method may change its object. -/
  isMutator : Bool
  returnType : Ty
  params : List Param
  deriving DecidableEq, Repr

/-- A method; only an abstract one may lack a body. -/
structure Method (ρ : Type) extends Signature where
  body : Option (Stmt ρ)

/-- An instance field with its initial value. -/
structure Field (ρ : Type) where
  name : String
  visibility : Visibility
  ty : Ty
  value : Option ρ
  deriving DecidableEq, Repr

/-- A constant of a class. -/
structure Constant (ρ : Type) where
  name : String
  visibility : Visibility
  ty : Ty
  value : ρ
  deriving DecidableEq, Repr

/-- A class. -/
structure Class (ρ : Type) where
  name : String
  parent : Option ClassId
  kind : ClassKind
  /-- The body of a constructor that the program supplies. -/
  constructorBody : Option (List (Stmt ρ))
  constants : List (Constant ρ)
  fields : List (Field ρ)
  methods : List (Method ρ)

/-- A member of an enumeration, with its value if one is given. -/
structure EnumMember (ρ : Type) where
  name : String
  value : Option ρ
  deriving DecidableEq, Repr

/-- An enumeration. -/
structure Enum (ρ : Type) where
  name : String
  members : List (EnumMember ρ)
  deriving DecidableEq, Repr

end CppPrinter
