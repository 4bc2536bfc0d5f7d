import CppPrinter.Class.Basic
import CppPrinter.Error.Basic

/-!
# What expressions see of the declarations

Printing an expression or a type needs the names of classes and enumerations, the parents of
classes and the signatures of their methods, and nothing else (`Scope`): no body, field or value.
The inheritance test walks the parents (`Scope.isSameOrDerived`).
-/

namespace CppPrinter

/-- What is known of a class from outside. -/
structure ClassHead where
  name : String
  parent : Option ClassId
  methods : List Signature
  deriving DecidableEq, Repr

/-- The declared classes and the names of the enumerations. -/
structure Scope where
  classes : Array ClassHead
  enums : Array String

/-- The head of a class. -/
def Class.head {ρ : Type} (c : Class ρ) : ClassHead :=
  ⟨c.name, c.parent, c.methods.map Method.toSignature⟩

namespace Scope

variable (scope : Scope)

def class? (id : ClassId) : Rendered ClassHead := lookUp scope.classes id.index

def className (id : ClassId) : Rendered String := do return (← scope.class? id).name

def enumName (id : EnumId) : Rendered String := lookUp scope.enums id.index

/-- A method of a class, by its position. -/
def method (owner : ClassId) (index : Nat) : Rendered Signature := do
  match (← scope.class? owner).methods[index]? with
  | some method => return method
  | none => .error .dangling

/-- The class `base` is found within `steps` parent links of `current`. -/
def derivesWithin (base : ClassId) : Nat → ClassId → Rendered Bool
  | 0, _ => .ok false
  | steps + 1, current =>
    if current = base then .ok true
    else do
      match (← scope.class? current).parent with
      | some parent => derivesWithin base steps parent
      | none => return false

/-- The class `derived` is `base` or inherits from it. A chain of parents without repetition visits
every class at most once, so the walk can stop after one step more than there are classes. -/
def isSameOrDerived (derived base : ClassId) : Rendered Bool :=
  scope.derivesWithin base (scope.classes.size + 1) derived

/-- A class pointer of type `target` accepts a value of type `other`: null, or a pointer to or
value of the class pointed to or one derived from it. Who owns the objects does not matter. -/
def accepts (target other : Ty) : Rendered Bool :=
  match target with
  | .classPtr _ base =>
    match other with
    | .null => .ok true
    | .classPtr _ derived | .classValue derived => scope.isSameOrDerived derived base
    | _ => .ok false
  | _ => .ok false

end Scope

end CppPrinter
