import CppPrinter.Class.Enumeration
import CppPrinter.Proofs.Class.Entry
import CppPrinter.Proofs.Output.Layout
import CppPrinter.Proofs.Reference.Arena

/-!
# Statements and members whose references resolve

The lines of statements, of the members of a class and of an enumeration are grounded, as the texts of
their expressions are. Whatever stands in a program resolves at once (`Class.Resolves`,
`Enum.Resolves`), also what is never printed, such as the value of a scalar constant.
-/

namespace CppPrinter

variable {fits : Prop} {env : Env}

/-! ### Declarations -/

namespace Env

variable (resolves : fits → env.Resolves)

include resolves

theorem plain_grounded {id : ExprId} (inside : fits → id.index < env.exprs.nodes.size) :
    Grounded fits (env.plain id) :=
  text_grounded resolves inside fun _ => trivial

theorem coerced_grounded {target : Ty} (named : fits → target.Resolves env.scope) {id : ExprId}
    (inside : fits → id.index < env.exprs.nodes.size) : Grounded fits (env.coerced target id) :=
  text_grounded resolves inside named

theorem initializer_grounded (name : String) {ty : Ty} (named : fits → ty.Resolves env.scope)
    {value : Option ExprId} (inside : fits → ∀ id ∈ value, id.index < env.exprs.nodes.size) :
    Grounded fits (env.initializer name ty value) := by
  unfold initializer
  split
  · exact .ok ""
  · refine (Grounded.lookUp fun holds => inside holds _ rfl).bind fun n => ?_
    split
    · split <;> simp
    · simp
  · exact (coerced_grounded resolves named fun holds => inside holds _ rfl).bind fun _ => .ok _
  · exact (coerced_grounded resolves named fun holds => inside holds _ rfl).bind fun _ => .ok _

theorem declare_grounded (name : String) {ty : Ty} (named : fits → ty.Resolves env.scope)
    {value : Option ExprId} (inside : fits → ∀ id ∈ value, id.index < env.exprs.nodes.size) :
    Grounded fits (env.declare name ty value) :=
  (ty.declaration_grounded named name).bind fun _ =>
    (initializer_grounded resolves name named inside).bind fun _ => .ok _

theorem constant_grounded (name : String) {ty : Ty} (named : fits → ty.Resolves env.scope)
    {value : ExprId} (inside : fits → value.index < env.exprs.nodes.size) :
    Grounded fits (env.constant name ty value) :=
  (ty.declaration_grounded named name).bind fun _ =>
    (plain_grounded resolves inside).bind fun _ => .ok _

theorem headPart_grounded {value : Option ExprId}
    (inside : fits → ∀ id ∈ value, id.index < env.exprs.nodes.size) :
    Grounded fits (env.headPart value) := by
  cases value with
  | none => exact .ok ""
  | some id => exact (plain_grounded resolves fun holds => inside holds id rfl).bind fun _ => .ok _

theorem returned_grounded {returnType : Option Ty}
    (named : fits → ∀ ty ∈ returnType, ty.Resolves env.scope) {id : ExprId}
    (inside : fits → id.index < env.exprs.nodes.size) :
    Grounded fits (env.returned returnType id) := by
  cases returnType with
  | none => exact plain_grounded resolves inside
  | some ty => exact coerced_grounded resolves (fun holds => named holds ty rfl) inside

theorem localConstant_grounded (name : String) {ty : Ty} (named : fits → ty.Resolves env.scope)
    {value : ExprId} (inside : fits → value.index < env.exprs.nodes.size) :
    Grounded fits (env.localConstant name ty value) := by
  unfold localConstant
  split
  · exact (constant_grounded resolves name named inside).bind fun _ => .ok _
  · exact .ok []

theorem labels_grounded {ids : List ExprId}
    (inside : fits → ∀ id ∈ ids, id.index < env.exprs.nodes.size) :
    Grounded fits (env.labels ids) :=
  .mapM fun id member =>
    (plain_grounded resolves fun holds => inside holds id member).bind fun _ => .ok _

end Env

/-! ### Statements -/

namespace Stmt

/-- The expressions directly in a statement. -/
def values {ρ : Type} : Stmt ρ → List ρ
  | declare _ _ value | ret value => value.toList
  | constant _ _ value | evaluate value | throwing value => [value]
  | branch test _ _ | whileLoop test _ | doLoop _ test => [test]
  | forLoop _ test advance _ => test.toList ++ advance.toList
  | switch value cases _ => value :: cases.flatMap Prod.fst
  | _ => []

/-- The type that a statement declares something of. -/
def ty? {ρ : Type} : Stmt ρ → Option Ty
  | declare _ ty _ | constant _ ty _ => some ty
  | _ => none

/-- The expressions directly in the statement exist, and its type resolves. -/
structure Resolves (env : Env) (s : Stmt ExprId) : Prop where
  values : ∀ id ∈ s.values, id.index < env.exprs.nodes.size
  ty : ∀ ty ∈ s.ty?, ty.Resolves env.scope

variable {returnType : Option Ty}

theorem renderCases_grounded (resolves : fits → env.Resolves)
    {cases : List (List ExprId × List (Stmt ExprId))}
    (inside : fits → ∀ id ∈ cases.flatMap Prod.fst, id.index < env.exprs.nodes.size)
    (each : ∀ s ∈ cases.flatMap Prod.snd, Grounded fits (s.render env returnType)) :
    Grounded fits (renderCases env returnType cases) := by
  induction cases with
  | nil => exact .ok []
  | cons group rest ih =>
    obtain ⟨labels, body⟩ := group
    obtain ⟨here, later⟩ := List.forall_mem_append.1 each
    rw [renderCases, renderAll_eq_mapM]
    refine (Env.labels_grounded resolves fun holds id member => ?_).bind fun _ =>
      (Grounded.mapM here).bind fun _ => (ih (fun holds id member => ?_) later).bind fun _ => .ok _
    · exact inside holds id (List.mem_append_left _ member)
    · exact inside holds id (List.mem_append_right _ member)

/-- What a loop starts with is printed in its head as it is printed by itself. -/
theorem loopStart_grounded (resolves : fits → env.Resolves) {start : Option (Stmt ExprId)}
    (each : fits → ∀ s ∈ start.toList, s.Resolves env) : Grounded fits (env.loopStart start) := by
  cases start with
  | none => exact .ok ""
  | some s =>
    have here : fits → s.Resolves env := fun holds => each holds s (List.mem_singleton_self s)
    cases s with
    | declare name ty value =>
      exact Env.declare_grounded resolves name (fun holds => (here holds).ty ty rfl)
        fun holds id given => (here holds).values id (Option.mem_toList.2 given)
    | evaluate value =>
      exact Env.plain_grounded resolves fun holds => (here holds).values value (by simp [values])
    | _ => exact .unsupported _

/-- A statement is grounded if all that it prints inside is. -/
theorem render_step (resolves : fits → env.Resolves)
    (named : fits → ∀ ty ∈ returnType, ty.Resolves env.scope) (s : Stmt ExprId)
    (below : ∀ t ∈ s.children, Grounded fits (t.render env returnType))
    (every : fits → s.Every (Resolves env)) : Grounded fits (s.render env returnType) := by
  have values : fits → ∀ id ∈ s.values, id.index < env.exprs.nodes.size := fun holds =>
    (every holds).parts.1.values
  have types : fits → ∀ ty ∈ s.ty?, ty.Resolves env.scope := fun holds => (every holds).parts.1.ty
  cases s with
  | block body =>
    rw [render, renderAll_eq_mapM]
    exact (Grounded.mapM below).bind fun _ => .ok _
  | declare name ty value =>
    exact (Env.declare_grounded resolves name (fun holds => types holds ty rfl)
      fun holds id given => values holds id (Option.mem_toList.2 given)).bind fun _ => .ok _
  | constant name ty value =>
    exact (Env.localConstant_grounded resolves name (fun holds => types holds ty rfl)
      fun holds => values holds value (by simp [Stmt.values])).bind fun _ => .ok _
  | evaluate value =>
    exact (Env.plain_grounded resolves fun holds => values holds value (by simp [Stmt.values])).bind
      fun _ => .ok _
  | ret value =>
    cases value with
    | none => exact .ok _
    | some id =>
      exact (Env.returned_grounded resolves named fun holds => values holds id
        (by simp [Stmt.values])).bind fun _ => .ok _
  | branch test positive negative =>
    obtain ⟨first, second⟩ := List.forall_mem_cons.1 below
    refine (Env.plain_grounded resolves fun holds => values holds test (by simp [Stmt.values])).bind
      fun _ => first.bind fun _ => Grounded.bind ?_ fun _ => .ok _
    cases negative with
    | none => exact .ok none
    | some negative => exact (second negative (List.mem_singleton_self _)).bind fun _ => .ok _
  | whileLoop test body =>
    exact (Env.plain_grounded resolves fun holds => values holds test (by simp [Stmt.values])).bind
      fun _ => (below body (List.mem_singleton_self _)).bind fun _ => .ok _
  | doLoop body test =>
    exact (below body (List.mem_singleton_self _)).bind fun _ => (Env.plain_grounded resolves
      fun holds => values holds test (by simp [Stmt.values])).bind fun _ => .ok _
  | forLoop start test advance body =>
    obtain ⟨-, last⟩ := List.forall_mem_append.1 below
    have starts : fits → ∀ s ∈ start.toList, s.Resolves env := fun holds s member =>
      ((every holds).parts.2 s (List.mem_append_left _ member)).parts.1
    refine (loopStart_grounded resolves starts).bind fun _ =>
      (Env.headPart_grounded resolves fun holds id given => ?_).bind fun _ =>
        (Env.headPart_grounded resolves fun holds id given => ?_).bind fun _ =>
          (last body (List.mem_singleton_self _)).bind fun _ => .ok _
    · exact values holds id (List.mem_append_left _ (Option.mem_toList.2 given))
    · exact values holds id (List.mem_append_right _ (Option.mem_toList.2 given))
  | switch value cases otherwise =>
    obtain ⟨first, second⟩ := List.forall_mem_append.1 below
    refine (Env.plain_grounded resolves fun holds => values holds value (by simp [Stmt.values])).bind
      fun _ => (renderCases_grounded resolves (fun holds id member => ?_) first).bind fun _ =>
        Grounded.bind ?_ fun _ => .ok _
    · exact values holds id (List.mem_cons_of_mem _ member)
    · cases otherwise with
      | none => exact .ok []
      | some body =>
        rw [renderDefault, renderAll_eq_mapM]
        exact (Grounded.mapM second).bind fun _ => .ok _
  | breakLoop | continueLoop | throwing => exact .ok _

/-- The print of a statement is grounded, however deep it nests. -/
theorem render_grounded (resolves : fits → env.Resolves)
    (named : fits → ∀ ty ∈ returnType, ty.Resolves env.scope) {s : Stmt ExprId}
    (every : fits → s.Every (Resolves env)) : Grounded fits (s.render env returnType) := by
  induction s using Stmt.induction with
  | step s ih =>
    exact render_step resolves named s
      (fun t member => ih t member fun holds => (every holds).parts.2 t member) every

theorem bodyLines_grounded (resolves : fits → env.Resolves)
    (named : fits → ∀ ty ∈ returnType, ty.Resolves env.scope) {body : List (Stmt ExprId)}
    (every : fits → ∀ s ∈ body, s.Every (Resolves env)) :
    Grounded fits (bodyLines env returnType body) := by
  rw [bodyLines, renderAll_eq_mapM]
  exact (Grounded.mapM fun s member => render_grounded resolves named fun holds =>
    every holds s member).bind fun _ => .ok _

end Stmt

/-! ### Members -/

/-- Every type in the class, everything it names and every expression in it exists, in its bodies at
any depth. -/
structure Class.Resolves (env : Env) (c : Class ExprId) : Prop where
  parent : ∀ id ∈ c.parent, id.index < env.scope.classes.size
  constants : ∀ k ∈ c.constants, k.ty.Resolves env.scope ∧ k.value.index < env.exprs.nodes.size
  fields : ∀ f ∈ c.fields, f.ty.Resolves env.scope ∧
    ∀ id ∈ f.value, id.index < env.exprs.nodes.size
  signatures : ∀ m ∈ c.methods, m.toSignature.Resolves env.scope
  bodies : ∀ m ∈ c.methods, ∀ body ∈ m.body, body.Every (Stmt.Resolves env)
  constructor : ∀ body ∈ c.constructorBody, ∀ s ∈ body, s.Every (Stmt.Resolves env)

/-- The values that the enumeration gives to its members exist. -/
def Enum.Resolves (env : Env) (e : Enum ExprId) : Prop :=
  ∀ m ∈ e.members, ∀ id ∈ m.value, id.index < env.exprs.nodes.size

theorem Signature.text_grounded {scope : Scope} {s : Signature} (named : fits → s.Resolves scope)
    (name : String) : Grounded fits (s.text scope name) := by
  have params : Grounded fits (s.paramsText scope) :=
    (Grounded.mapM fun q member => q.ty.declaration_grounded
      (fun holds => (named holds).params q member) q.name).bind fun _ => .ok _
  exact params.bind fun _ => (s.returnType.declaration_grounded
    (fun holds => (named holds).returnType) name).bind fun _ => .ok _

theorem Enum.declarationLines_grounded (resolves : fits → env.Resolves) {e : Enum ExprId}
    (inside : fits → e.Resolves env) : Grounded fits (e.declarationLines env) := by
  refine (Grounded.mapM fun m member => ?_).bind fun _ => .ok _
  unfold EnumMember.text
  split
  · exact .ok _
  · rename_i id given
    exact (Env.plain_grounded resolves fun holds => inside holds m member id given).bind
      fun _ => .ok _

/-- A method that leaves out its block is one statement. -/
theorem Stmt.every_bodyStatements {ρ : Type} {property : Stmt ρ → Prop} {body : Stmt ρ}
    (every : body.Every property) : ∀ s ∈ body.bodyStatements, s.Every property := by
  cases body with
  | block statements => exact every.parts.2
  | _ => exact List.forall_mem_singleton.2 every

theorem Method.definitionLines_grounded (resolves : fits → env.Resolves) (name : String)
    {m : Method ExprId} (signature : fits → m.toSignature.Resolves env.scope)
    (every : fits → ∀ body ∈ m.body, body.Every (Stmt.Resolves env)) :
    Grounded fits (m.definitionLines env name) := by
  unfold Method.definitionLines
  split
  · exact .ok []
  · cases given : m.body with
    | none => exact .unsupported _
    | some body =>
      have returns : fits → ∀ ty ∈ some m.returnType, ty.Resolves env.scope := by
        rintro holds _ ⟨⟩
        exact (signature holds).returnType
      exact (Signature.text_grounded signature _).bind fun _ =>
        (Stmt.bodyLines_grounded resolves returns fun holds =>
          Stmt.every_bodyStatements (every holds body given)).bind fun _ => .ok _

namespace Class

variable {c : Class ExprId} (resolves : fits → env.Resolves) (h : fits → c.Resolves env)

include resolves h

/-- Every line in the definition of the class is grounded. -/
theorem line_grounded {e : Entry} (member : e ∈ c.entries) : Grounded fits (e.line env c) := by
  cases e with
  | access | constructor => exact .ok _
  | constant k =>
    have listed := (c.constant_mem_entries_iff.1 member).1
    exact .map _ ((Env.constant_grounded resolves _ (fun holds => ((h holds).constants k listed).1)
      fun holds => ((h holds).constants k listed).2).bind fun _ => .ok _)
  | field f =>
    have listed := c.field_mem_entries_iff.1 member
    exact .map _ ((Env.declare_grounded resolves _ (fun holds => ((h holds).fields f listed).1)
      fun holds => ((h holds).fields f listed).2).bind fun _ => .ok _)
  | method m =>
    have listed := c.method_mem_entries_iff.1 member
    exact .map _ ((Signature.text_grounded (fun holds => (h holds).signatures m listed) _).bind
      fun _ => .ok _)

theorem declarationLines_grounded : Grounded fits (c.declarationLines env) := by
  rw [declarationLines_eq]
  have head : Grounded fits (c.headText env.scope) := by
    unfold headText
    cases parent : c.parent with
    | none => exact .ok _
    | some id =>
      exact (Grounded.map _ (env.scope.className_grounded
        fun holds => (h holds).parent id parent)).bind fun _ => .ok _
  exact head.bind fun _ => (Grounded.mapM fun e member => line_grounded resolves h member).bind
    fun _ => .ok _

theorem definitionLines_grounded : Grounded fits (c.definitionLines env) := by
  have start : Grounded fits (c.constructorLines env) := by
    unfold constructorLines
    split
    · exact .ok []
    · rename_i body given
      exact (Stmt.bodyLines_grounded resolves (fun _ => by simp) fun holds =>
        (h holds).constructor body given).bind fun _ => .ok _
  exact start.bind fun _ => (Grounded.mapM fun m member => Method.definitionLines_grounded resolves
    c.name (fun holds => (h holds).signatures m member) fun holds =>
      (h holds).bodies m member).bind fun _ => .ok _

end Class

end CppPrinter
