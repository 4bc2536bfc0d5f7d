import CppPrinter.Proofs.Result
import CppPrinter.Proofs.Stmt.Render

/-!
# Induction over statements

A statement holds other statements directly, as an alternative, in lists and in the cases of a
switch. `Stmt.children` lists them whatever holds them, and `Stmt.induction` passes from them to the
statement. `Stmt.Every` asks a property of a statement and of all statements inside it, at any
depth. Printing a statement prints each of its children (`Stmt.IsRendered.children`), so what holds
of every statement that can be printed holds at any depth inside one (`Stmt.IsRendered.every`).
-/

namespace CppPrinter

namespace Stmt

variable {ρ : Type}

/-- The statements directly inside a statement, what a loop starts with included. -/
def children : Stmt ρ → List (Stmt ρ)
  | block body => body
  | branch _ positive negative => positive :: negative.toList
  | whileLoop _ body | doLoop body _ => [body]
  | forLoop start _ _ body => start.toList ++ [body]
  | switch _ cases otherwise => cases.flatMap Prod.snd ++ otherwise.getD []
  | _ => []

/-- The property passes from the children of a statement to the statement. -/
def Passes (motive : Stmt ρ → Prop) : Prop := ∀ s, (∀ t ∈ s.children, motive t) → motive s

namespace Passes

variable {motive : Stmt ρ → Prop}

mutual

theorem stmt (passes : Passes motive) : (s : Stmt ρ) → motive s
  | .block body => passes _ (passes.list body)
  | .branch _ positive negative =>
    passes _ (List.forall_mem_cons.2 ⟨passes.stmt positive, passes.option negative⟩)
  | .whileLoop _ body | .doLoop body _ => passes _ (List.forall_mem_singleton.2 (passes.stmt body))
  | .forLoop start _ _ body =>
    passes _ (List.forall_mem_append.2
      ⟨passes.option start, List.forall_mem_singleton.2 (passes.stmt body)⟩)
  | .switch _ cases otherwise =>
    passes _ (List.forall_mem_append.2 ⟨passes.cases cases, passes.default otherwise⟩)
  | .declare .. | .constant .. | .evaluate _ | .ret _ | .breakLoop | .continueLoop | .throwing _ =>
    passes _ (List.forall_mem_nil _)

theorem option (passes : Passes motive) : (s? : Option (Stmt ρ)) → ∀ s ∈ s?.toList, motive s
  | none => List.forall_mem_nil _
  | some s => List.forall_mem_singleton.2 (passes.stmt s)

theorem list (passes : Passes motive) : (body : List (Stmt ρ)) → ∀ s ∈ body, motive s
  | [] => List.forall_mem_nil _
  | s :: rest => List.forall_mem_cons.2 ⟨passes.stmt s, passes.list rest⟩

theorem default (passes : Passes motive) :
    (body? : Option (List (Stmt ρ))) → ∀ s ∈ body?.getD [], motive s
  | none => List.forall_mem_nil _
  | some body => passes.list body

theorem cases (passes : Passes motive) :
    (cs : List (List ρ × List (Stmt ρ))) → ∀ s ∈ cs.flatMap Prod.snd, motive s
  | [] => List.forall_mem_nil _
  | (_, body) :: rest => List.forall_mem_append.2 ⟨passes.list body, passes.cases rest⟩

end

end Passes

/-- What passes from the children to a statement holds of every statement. -/
theorem induction {motive : Stmt ρ → Prop}
    (step : ∀ s, (∀ t ∈ s.children, motive t) → motive s) (s : Stmt ρ) : motive s :=
  Passes.stmt step s

/-- The statement and every statement inside it, at any depth, have the property. -/
inductive Every (property : Stmt ρ → Prop) : Stmt ρ → Prop where
  | intro {s : Stmt ρ} (here : property s) (below : ∀ t ∈ s.children, Every property t) :
      Every property s

theorem Every.parts {property : Stmt ρ → Prop} {s : Stmt ρ} (h : s.Every property) :
    property s ∧ ∀ t ∈ s.children, t.Every property := by
  cases h with
  | intro here below => exact ⟨here, below⟩

section Render

variable {env : Env} {returnType : Option Ty}

/-- The layout remembers of a statement whether it declares a variable and whether it is a block. -/
theorem render_kind (env : Env) (returnType : Option Ty) (s : Stmt ExprId) :
    Gives (fun f => f.isDeclaration = s.isVariable ∧ f.isBlock = s.isBlock) (s.render env returnType) := by
  cases s with
  | block body => exact .after fun fs => .ok ⟨rfl, rfl⟩
  | declare name ty value => exact .after fun text => .ok ⟨rfl, rfl⟩
  | constant name ty value => exact .after fun ls => .ok ⟨rfl, rfl⟩
  | evaluate value => exact .after fun text => .ok ⟨rfl, rfl⟩
  | ret value =>
    cases value with
    | none => exact .ok ⟨rfl, rfl⟩
    | some id => exact .after fun text => .ok ⟨rfl, rfl⟩
  | branch test positive negative =>
    refine .after fun condition => .after fun f => .after fun f? => .ok ?_
    cases f? <;> exact ⟨rfl, rfl⟩
  | whileLoop test body => exact .after fun condition => .after fun f => .ok ⟨rfl, rfl⟩
  | doLoop body test => exact .after fun f => .after fun condition => .ok ⟨rfl, rfl⟩
  | forLoop start test advance body =>
    exact .after fun first => .after fun condition => .after fun step => .after fun f => .ok ⟨rfl, rfl⟩
  | switch value cases otherwise =>
    exact .after fun chosen => .after fun groups => .after fun last => .ok ⟨rfl, rfl⟩
  | breakLoop | continueLoop | throwing => exact .ok ⟨rfl, rfl⟩

/-- A list of statements is printed one statement after the other. -/
theorem renderAll_eq_mapM (env : Env) (returnType : Option Ty) (body : List (Stmt ExprId)) :
    renderAll env returnType body = body.mapM (render env returnType) := by
  induction body with
  | nil => rfl
  | cons s rest ih => rw [renderAll, ih, List.mapM_cons]

/-- The statement can be printed. -/
def IsRendered (env : Env) (returnType : Option Ty) (s : Stmt ExprId) : Prop :=
  ∃ f, s.render env returnType = .ok f

theorem isRendered_of_renderAll {body : List (Stmt ExprId)} {fs : List Fragment}
    (printed : renderAll env returnType body = .ok fs) :
    ∀ s ∈ body, s.IsRendered env returnType := by
  intro s member
  rw [renderAll_eq_mapM] at printed
  exact exists_of_mapM printed member

theorem isRendered_of_renderCases {cases : List (List ExprId × List (Stmt ExprId))}
    {ls : List Line} (printed : renderCases env returnType cases = .ok ls) :
    ∀ s ∈ cases.flatMap Prod.snd, s.IsRendered env returnType := by
  induction cases generalizing ls with
  | nil => exact List.forall_mem_nil _
  | cons group rest ih =>
    obtain ⟨labels, body⟩ := group
    simp only [renderCases, bind_eq_ok_iff] at printed
    obtain ⟨heads, -, fs, first, later, printedRest, -⟩ := printed
    exact List.forall_mem_append.2 ⟨isRendered_of_renderAll first, ih printedRest⟩

/-- What a loop starts with can be printed as a statement too. -/
theorem isRendered_of_loopStart {start : Option (Stmt ExprId)} {text : String}
    (printed : env.loopStart start = .ok text) :
    ∀ s ∈ start.toList, s.IsRendered env returnType := by
  cases start with
  | none => exact List.forall_mem_nil _
  | some s =>
    refine List.forall_mem_singleton.2 ?_
    cases s with
    | declare name ty value =>
      have declared : env.declare name ty value = .ok text := printed
      exact ⟨.declaration (text ++ ";"), by simp [render, declared]⟩
    | evaluate value =>
      have evaluated : env.plain value = .ok text := printed
      exact ⟨.plain [.flush (text ++ ";")], by simp [render, evaluated]⟩
    | _ => simp [Env.loopStart] at printed

/-- Whoever prints a statement prints everything inside it. -/
theorem IsRendered.children {s : Stmt ExprId} (h : s.IsRendered env returnType) :
    ∀ t ∈ s.children, t.IsRendered env returnType := by
  obtain ⟨f, printed⟩ := h
  cases s with
  | block body =>
    obtain ⟨fs, printedBody, -⟩ := bind_eq_ok_iff.1 printed
    exact isRendered_of_renderAll printedBody
  | branch test positive negative =>
    simp only [render, bind_eq_ok_iff] at printed
    obtain ⟨-, -, g, printedPositive, g?, printedNegative, -⟩ := printed
    refine List.forall_mem_cons.2 ⟨⟨g, printedPositive⟩, ?_⟩
    cases negative with
    | none => exact List.forall_mem_nil _
    | some negative =>
      obtain ⟨k, printedNegative, -⟩ := bind_eq_ok_iff.1 printedNegative
      exact List.forall_mem_singleton.2 ⟨k, printedNegative⟩
  | whileLoop test body =>
    simp only [render, bind_eq_ok_iff] at printed
    obtain ⟨-, -, g, printedBody, -⟩ := printed
    exact List.forall_mem_singleton.2 ⟨g, printedBody⟩
  | doLoop body test =>
    obtain ⟨g, printedBody, -⟩ := bind_eq_ok_iff.1 printed
    exact List.forall_mem_singleton.2 ⟨g, printedBody⟩
  | forLoop start test advance body =>
    simp only [render, bind_eq_ok_iff] at printed
    obtain ⟨first, printedStart, -, -, -, -, g, printedBody, -⟩ := printed
    exact List.forall_mem_append.2 ⟨isRendered_of_loopStart printedStart,
      List.forall_mem_singleton.2 ⟨g, printedBody⟩⟩
  | switch value cases otherwise =>
    simp only [render, bind_eq_ok_iff] at printed
    obtain ⟨-, -, groups, printedCases, last, printedLast, -⟩ := printed
    refine List.forall_mem_append.2 ⟨isRendered_of_renderCases printedCases, ?_⟩
    cases otherwise with
    | none => exact List.forall_mem_nil _
    | some body =>
      obtain ⟨fs, printedBody, -⟩ := bind_eq_ok_iff.1 printedLast
      exact isRendered_of_renderAll printedBody
  | _ => exact List.forall_mem_nil _

/-- What holds of every statement that can be printed holds at any depth inside one. -/
theorem IsRendered.every {property : Stmt ExprId → Prop}
    (each : ∀ s : Stmt ExprId, s.IsRendered env returnType → property s) {s : Stmt ExprId}
    (h : s.IsRendered env returnType) : s.Every property := by
  induction s using Stmt.induction with
  | step s ih => exact .intro (each s h) fun t member => ih t member (h.children t member)

end Render

end Stmt

end CppPrinter
