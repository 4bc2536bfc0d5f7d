import CppPrinter.Class.Declaration
import CppPrinter.Stmt.Emission

/-!
# Definitions of constructors and methods

The bodies of a class, written outside of it under qualified names. Every body is a brace block;
values returned by a method are converted to its return type, those of a constructor are not.
-/

namespace CppPrinter

/-- The statements of a body; a single statement stands for a block of one. -/
def Stmt.bodyStatements {ρ : Type} : Stmt ρ → List (Stmt ρ)
  | .block body => body
  | s => [s]

namespace Emit

/-- Writes the constructor, if the program supplies one. -/
def constructorDefinition (env : Env) (c : Class ExprId) : Emit Unit := do
  match c.constructorBody with
  | none => pure ()
  | some body =>
    endLine
    line (c.name ++ "::" ++ c.name ++ "()")
    inBlock (statements env body)

/-- Writes one method. An abstract method has no definition, and every other one needs a body. -/
def methodDefinition (env : Env) (c : Class ExprId) (m : Method ExprId) : Emit Unit := do
  if m.dispatch = .abstract then pure ()
  else match m.body with
    | none => ofRendered (unsupported (.missingBody c.name m.name))
    | some body =>
      let signature ← ofRendered
        (m.toSignature.text env.scope (c.name ++ "::" ++ camelCase m.name))
      endLine
      line signature
      inMethod m.toSignature (inBlock (statements env body.bodyStatements))

/-- Writes the bodies of a class. -/
def classDefinitions (env : Env) (c : Class ExprId) : Emit Unit := do
  constructorDefinition env c
  c.methods.forM (methodDefinition env c)

end Emit

end CppPrinter
