import CppPrinter.Class.Basic
import CppPrinter.Error.Basic

/-!
# The order of class definitions

A class can be defined only after its parent and after every class that it stores by value, be it
as an element of an array (`Class.dependencies`); a pointer to a class asks for no definition.
`classOrder` visits the classes in the order of the program and puts each behind what it depends
on. A class met again on the way down from itself has no place in any order.
-/

namespace CppPrinter

/-- The classes whose definitions must come before that of `c`. -/
def Class.dependencies {ρ : Type} (c : Class ρ) : List ClassId :=
  c.parent.toList ++ c.fields.filterMap fun f => f.ty.baseClass

/-- Extends an order that is closed under dependencies by the class `id` and what it depends on.
The classes that wait for it stand in `waiting`. Every level of waiting holds one more class, so the
fuel lasts as long as no more than `fuel` classes are missing from `waiting`. -/
def visitClass {ρ : Type} (classes : Array (Class ρ)) :
    Nat → List ClassId → List ClassId → ClassId → Rendered (List ClassId)
  | fuel, waiting, order, id => do
    let c ← lookUp classes id.index
    if id ∈ order then return order
    else if id ∈ waiting then .error (.circularDependency c.name)
    else match fuel with
      | 0 => .error .dangling
      | fuel + 1 =>
        let before ← c.dependencies.foldlM (visitClass classes fuel (id :: waiting)) order
        return before ++ [id]

/-- All classes, each behind everything it depends on. -/
def classOrder {ρ : Type} (classes : Array (Class ρ)) : Rendered (List ClassId) :=
  ((List.range classes.size).map ClassId.mk).foldlM (visitClass classes classes.size []) []

end CppPrinter
