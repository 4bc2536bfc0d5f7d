import CppPrinter.Proofs.Stmt.Fragment
import CppPrinter.Stmt.Emission

/-!
# The layout of statements

What a statement comes to, laid out on lines without the state in which it is written (`Stmt.render`). The
layout follows the structure of the statement and knows nothing of open lines and of the depth, which
makes it the form in which statements are reasoned about. That the steps of the writing come to it, at
every depth and wherever the statement stands, is `Emit.follows`.
-/

namespace CppPrinter

/-- The line of a local constant, if it takes one. -/
def Env.localConstant (env : Env) (name : String) (ty : Ty) (value : ExprId) :
    Rendered (List Line) :=
  if ty.isArrayStorage then do return [.flush (← env.constant name ty value)] else .ok []

/-- The labels of one case of a switch. -/
def Env.labels (env : Env) (labels : List ExprId) : Rendered (List Line) :=
  labels.mapM fun id => do return .flush ("case " ++ (← env.plain id) ++ ":")

namespace Stmt

mutual

/-- The layout of a statement. -/
def render (env : Env) (returnType : Option Ty) : Stmt ExprId → Rendered Fragment
  | .block body => do return .block ((← renderAll env returnType body).flatMap Fragment.lines)
  | .declare name ty value => do return .declaration ((← env.declare name ty value) ++ ";")
  | .constant name ty value => do return .plain (← env.localConstant name ty value)
  | .evaluate value => do return .plain [.flush ((← env.plain value) ++ ";")]
  | .ret none => .ok (.plain [.flush "return;"])
  | .ret (some value) => do
    return .plain [.flush ("return " ++ (← env.returned returnType value) ++ ";")]
  | .branch test positive negative => do
    let condition ← env.plain test
    let positive ← render env returnType positive
    let negative ← renderOption env returnType negative
    return .ofBranch ("if (" ++ condition ++ ")") positive negative
  | .whileLoop test body => do
    let condition ← env.plain test
    let body ← render env returnType body
    return .plain (body.under ("while (" ++ condition ++ ")"))
  | .doLoop body test => do
    let body ← render env returnType body
    let condition ← env.plain test
    return .ofDoLoop body ("while (" ++ condition ++ ");")
  | .forLoop start test advance body => do
    let first ← env.loopStart start
    let condition ← env.headPart test
    let step ← env.headPart advance
    let body ← render env returnType body
    return .plain (body.under ("for (" ++ first ++ ";" ++ condition ++ ";" ++ step ++ ")"))
  | .breakLoop => .ok (.plain [.flush "break;"])
  | .continueLoop => .ok (.plain [.flush "continue;"])
  | .switch value cases otherwise => do
    let chosen ← env.plain value
    let groups ← renderCases env returnType cases
    let last ← renderDefault env returnType otherwise
    return .plain (.flush ("switch (" ++ chosen ++ ") \x7b") :: (groups ++ last ++ [Line.flush "\x7d"]))
  | .throwing _ => .ok (.plain [.flush "throw std::exception();"])

def renderOption (env : Env) (returnType : Option Ty) :
    Option (Stmt ExprId) → Rendered (Option Fragment)
  | none => .ok none
  | some s => do return some (← render env returnType s)

def renderAll (env : Env) (returnType : Option Ty) : List (Stmt ExprId) → Rendered (List Fragment)
  | [] => .ok []
  | s :: rest => do
    let first ← render env returnType s
    return first :: (← renderAll env returnType rest)

def renderDefault (env : Env) (returnType : Option Ty) :
    Option (List (Stmt ExprId)) → Rendered (List Line)
  | none => .ok []
  | some body => do
    return .flush "default:" :: Fragment.caseBody (← renderAll env returnType body)

def renderCases (env : Env) (returnType : Option Ty) :
    List (List ExprId × List (Stmt ExprId)) → Rendered (List Line)
  | [] => .ok []
  | (labels, body) :: rest => do
    let heads ← env.labels labels
    let body ← renderAll env returnType body
    return heads ++ Fragment.caseBody body ++ (← renderCases env returnType rest)

end

end Stmt

end CppPrinter
