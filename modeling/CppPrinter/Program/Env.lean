import CppPrinter.Program.Basic

/-!
# What members and statements are printed from

Printing a member or a statement reads the declarations and the arena of the program (`Env`). The
expressions in it are printed by their positions.
-/

namespace CppPrinter

/-- The part of a program from which members and statements are printed. -/
structure Env where
  scope : Scope
  exprs : Arena

def Program.env (p : Program) : Env := ⟨p.scope, p.exprs⟩

namespace Env

/-- The text of the expression at a position as a whole statement or initializer. -/
def text (env : Env) (id : ExprId) (form : Form) : Rendered String :=
  env.exprs.text env.scope id form .statement

/-- The expression as it stands. -/
def plain (env : Env) (id : ExprId) : Rendered String := env.text id .plain

/-- The expression converted to a type. -/
def coerced (env : Env) (target : Ty) (id : ExprId) : Rendered String :=
  env.text id (.coerced target)

end Env

end CppPrinter
