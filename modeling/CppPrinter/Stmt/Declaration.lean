import CppPrinter.Program.Env

/-!
# Declarations with initial values

Local variables and fields share one form (`Env.declare`), and so do local constants and constants
of a class (`Env.constant`).
-/

namespace CppPrinter

namespace Env

/-- The initial value behind a declaration. An inline array starts only with null, zero or false,
all written as an empty initializer, and an owned string is built from its value. -/
def initializer (env : Env) (name : String) (ty : Ty) (value : Option ExprId) : Rendered String :=
  match ty, value with
  | _, none => .ok ""
  | .arrayStorage .., some id => do
    match (← env.exprs.node id).literal? with
    | some literal =>
      if literal.isDefault then return " \x7b\x7d" else .error (.arrayInitializer name)
    | none => .error (.arrayInitializer name)
  | .string .owned, some id => do return "\x7b" ++ (← env.coerced ty id) ++ "\x7d"
  | _, some id => do return " = " ++ (← env.coerced ty id)

/-- A variable or field with its initial value, without the semicolon. -/
def declare (env : Env) (name : String) (ty : Ty) (value : Option ExprId) : Rendered String := do
  let declared ← ty.declaration env.scope name
  return declared ++ (← env.initializer name ty value)

/-- A constant with its value. -/
def constant (env : Env) (name : String) (ty : Ty) (value : ExprId) : Rendered String := do
  let declared ← ty.declaration env.scope name
  return "static constexpr " ++ declared ++ " = " ++ (← env.plain value) ++ ";"

end Env

end CppPrinter
