import CppPrinter.Layout.Line
import CppPrinter.Program.Env

/-!
# Enumerations in the header

An enumeration lists its members in camel case, each with its value if it has one, and a comma
behind all but the last.
-/

namespace CppPrinter

/-- A member of an enumeration with the value it is given. -/
def EnumMember.text (env : Env) (m : EnumMember ExprId) : Rendered String :=
  match m.value with
  | none => .ok (camelCase m.name)
  | some id => do return camelCase m.name ++ " = " ++ (← env.plain id)

/-- Lines with a comma behind each but the last. -/
def commaLines : List String → List Line
  | [] => []
  | [last] => [.flush last]
  | item :: rest => .flush (item ++ ",") :: commaLines rest

/-- The definition of an enumeration, below an empty line. -/
def Enum.declarationLines (env : Env) (e : Enum ExprId) : Rendered (List Line) := do
  let members ← e.members.mapM (EnumMember.text env)
  return [Line.blank, .flush ("enum class " ++ e.name), .flush "\x7b"] ++
    indented (commaLines members) ++ [Line.flush "\x7d;"]

end CppPrinter
