import CppPrinter.Output.Artifact
import CppPrinter.Proofs.Stmt.Emission

/-!
# Both files as lines

The definitions of a class, and from them the whole source, are laid out here as lines, without the
state in which they are written (`Class.definitionLines`, `Program.sourceLines`). What is written
is the text of these lines (`Program.header_eq`, `Program.source_eq`).
-/

namespace CppPrinter

/-- The lines of statements one after the other. -/
def Stmt.bodyLines (env : Env) (returnType : Option Ty) (body : List (Stmt ExprId)) :
    Rendered (List Line) := do
  return (← renderAll env returnType body).flatMap Fragment.lines

/-- The lines of one method outside of its class. -/
def Method.definitionLines (env : Env) (className : String) (m : Method ExprId) :
    Rendered (List Line) :=
  if m.dispatch = .abstract then .ok []
  else match m.body with
    | none => unsupported (.missingBody className m.name)
    | some body => do
      let signature ← m.toSignature.text env.scope (className ++ "::" ++ camelCase m.name)
      let inner ← Stmt.bodyLines env (some m.returnType) body.bodyStatements
      return [Line.blank, .flush signature] ++ braced inner

namespace Class

/-- The lines of the constructor outside of the class, if the program supplies one. -/
def constructorLines (env : Env) (c : Class ExprId) : Rendered (List Line) :=
  match c.constructorBody with
  | none => .ok []
  | some body => do
    let inner ← Stmt.bodyLines env none body
    return [Line.blank, .flush (c.name ++ "::" ++ c.name ++ "()")] ++ braced inner

/-- The lines of all bodies of the class. -/
def definitionLines (env : Env) (c : Class ExprId) : Rendered (List Line) := do
  let start ← c.constructorLines env
  let methods ← c.methods.mapM (Method.definitionLines env c.name)
  return start ++ methods.flatten

end Class

namespace Program

variable (p : Program) (o : Options)

/-- The lines of the header before its declarations. -/
def headerStart : List Line :=
  .flush "#pragma once" :: headerIncludes.map includeLine ++ o.opening

/-- The lines of the header. -/
def headerLines : Rendered (List Line) := do
  return headerStart o ++ (← p.declarationLines) ++ o.closing

/-- The lines of the source before its definitions. -/
def sourceStart : List Line :=
  sourceIncludes.map includeLine ++
    [Line.flush ("#include \"" ++ o.headerName ++ "\""),
      .flush "using namespace std::string_view_literals;"] ++
    p.resources.declarationLines ++ o.opening

/-- The lines of the source. -/
def sourceLines : Rendered (List Line) := do
  let definitions ← p.classes.toList.mapM (Class.definitionLines p.env)
  return p.sourceStart o ++ definitions.flatten ++ o.closing ++ p.resources.definitionLines

end Program

namespace Emit.Writes

variable {method : Option Signature}

theorem statements (env : Env) (body : List (Stmt ExprId)) (method : Option Signature) :
    Writes (statements env body) method
      (Stmt.bodyLines env (method.map Signature.returnType) body) :=
  Puts.statements fun s _ => follows env method s

theorem constructorDefinition (env : Env) (c : Class ExprId) :
    Writes (constructorDefinition env c) none (c.constructorLines env) := by
  unfold Emit.constructorDefinition Class.constructorLines
  cases c.constructorBody with
  | none => exact .nothing
  | some body =>
    have whole := endLine.seq ((line (c.name ++ "::" ++ c.name ++ "()")).seq
      (statements env body none).inBlock)
    simpa using whole

theorem methodDefinition (env : Env) (c : Class ExprId) (m : Method ExprId) :
    Writes (methodDefinition env c m) none (m.definitionLines env c.name) := by
  unfold Emit.methodDefinition Method.definitionLines
  split
  · exact .nothing
  · cases m.body with
    | none => exact .failed _
    | some body =>
      refine .ofRendered fun signature => ?_
      have inner := (statements env body.bodyStatements (some m.toSignature)).inBlock
      simpa using endLine.seq ((line signature).seq inner.inMethod)

theorem classDefinitions (env : Env) (c : Class ExprId) :
    Writes (classDefinitions env c) none (c.definitionLines env) := by
  have whole := (constructorDefinition env c).seq (.forM (methodDefinition env c) c.methods)
  simpa [Emit.classDefinitions, Class.definitionLines] using whole

end Emit.Writes

namespace Program

open Emit.Writes

variable (p : Program) (o : Options)

/-- The header is the text of its lines. -/
theorem header_eq : p.header o = linesText <$> p.headerLines o := by
  refine Emit.textOf_eq ?_
  have whole : Emit.Writes (p.emitHeader o) none _ := ofRendered fun declarations =>
    (lines (.flush "#pragma once" :: headerIncludes.map includeLine)).seq
      (lines (o.opening ++ declarations ++ o.closing))
  simpa [headerLines, headerStart] using whole

/-- The source is the text of its lines. -/
theorem source_eq : p.source o = linesText <$> p.sourceLines o := by
  refine Emit.textOf_eq ?_
  have definitions := forM (classDefinitions p.env) p.classes.toList
  have whole := (lines (sourceIncludes.map includeLine)).seq
    ((lines [.flush ("#include \"" ++ o.headerName ++ "\""),
      .flush "using namespace std::string_view_literals;"]).seq
    ((lines p.resources.declarationLines).seq
    ((lines o.opening).seq (definitions.seq ((lines o.closing).seq
    (lines p.resources.definitionLines))))))
  simpa [emitSource, sourceLines, sourceStart] using whole

end Program

end CppPrinter
