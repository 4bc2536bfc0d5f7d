import CppPrinter.Class.Scope
import CppPrinter.Number.Shortest
import CppPrinter.Text.Identifier
import CppPrinter.Text.Literal

/-!
# Literals, symbols and the names of members

The parts of an expression that have no operands. Integers beyond 32 bits take a suffix, names of
members are in camel case, and the symbols of the library stand only in front of a call.
-/

namespace CppPrinter

/-- The integer fits into 32 bits, and its literal needs no suffix. -/
def isPlainInt (value : Int) : Bool := decide (-0x80000000 ≤ value) && decide (value < 0x80000000)

/-- The text of a literal. -/
def Literal.text : Literal → Rendered String
  | null => .ok "nullptr"
  | bool value => .ok (if value then "true" else "false")
  | int value =>
    .ok (if isPlainInt value.toInt then toString value.toInt else toString value.toInt ++ "LL")
  | double value => if value.isFinite then .ok value.text else unsupported (.nonFinite value)
  | string value => .ok (stringLiteral value)

/-- The namespace of the resource table. -/
def resourceNamespace : String := "TernResource"

/-- The identifier of a resource, qualified by the namespace of the resource table. -/
def resourceReference (name : String) : String :=
  resourceNamespace ++ "::" ++ sanitizeIdentifier name

/-- The text of a symbol on its own. Fields are reached through the object. -/
def Symbol.text (scope : Scope) : Symbol → Rendered String
  | this => .ok "this"
  | localName name => .ok name
  | field _ name => .ok ("this->" ++ camelCase name)
  | constant _ name => .ok (camelCase name)
  | enumValue owner name => do return (← scope.enumName owner) ++ "::" ++ camelCase name
  | classRef target => scope.className target
  | enumRef target => scope.enumName target
  | target => unsupported (.librarySymbol target)

/-- The member belongs to the class or enumeration itself and not to an object. -/
def Symbol.isScoped : Symbol → Bool
  | constant .. | enumValue .. => true
  | _ => false

/-- The name under which a symbol is a member. -/
def Symbol.memberName : Symbol → Rendered String
  | field _ name | constant _ name | enumValue _ name => .ok (camelCase name)
  | target => unsupported (.memberAccess target)

end CppPrinter
