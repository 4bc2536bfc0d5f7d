import CppPrinter.Proofs.Body.Printed

/-!
# The bodies of control statements

What is printed between the header of a control statement and what follows are the tokens of its body. If
all bodies are filled, at any depth, each of them is a single statement, and if one is not filled, some body
is none (`bodies_single_iff`): what comes next is then taken for the body (`next_statement_taken`).
-/

namespace CppPrinter

namespace Stmt

/-- All bodies of the statement are printed as statements. -/
def HasFilledBodies (env : Env) (s : Stmt ExprId) : Prop := ∀ b ∈ s.bodies, b.isFilled env = true

/-- Between the header of the statement, or its `else`, and what follows stands what is printed for
its bodies, and for each of them it is one statement and no more. -/
structure HoldsBodies (env : Env) (returnType : Option Ty) (s : Stmt ExprId) : Prop where
  inside : ∃ bss ts, List.Forall₂ (PrintsAs env returnType) s.bodies bss ∧
    s.PrintsAs env returnType ts ∧ s.Surrounds env bss ts
  single : ∀ b ∈ s.bodies, ∀ bs, b.PrintsAs env returnType bs → IsSingle bs

end Stmt

section Statements

variable {env : Env} {returnType : Option Ty} (scopeNamed : env.scope.Named)

include scopeNamed

/-- Whatever is printed for a statement has tokens, and they surround those of its bodies. -/
theorem Stmt.IsRendered.surrounds {s : Stmt ExprId} (spellable : s.Every (IsSpellable env))
    (h : s.IsRendered env returnType) :
    ∃ bss ts, List.Forall₂ (PrintsAs env returnType) s.bodies bss ∧ s.PrintsAs env returnType ts ∧
      s.Surrounds env bss ts := by
  obtain ⟨f, printed⟩ := h
  obtain ⟨bss, ts, bodies, spells, -, surrounds⟩ := render_isFormed scopeNamed spellable f printed
  exact ⟨bss, ts, bodies, ⟨f, printed, f.lines_lined ▸ spells.lines⟩, surrounds⟩

theorem Stmt.PrintsAs.surrounds {s : Stmt ExprId} {ts : List Token}
    (spellable : s.Every (IsSpellable env)) (h : s.PrintsAs env returnType ts) :
    ∃ bss, List.Forall₂ (PrintsAs env returnType) s.bodies bss ∧ s.Surrounds env bss ts := by
  have rendered : s.IsRendered env returnType := by
    obtain ⟨f, printed, -⟩ := h
    exact ⟨f, printed⟩
  obtain ⟨bss, us, bodies, prints, surrounds⟩ := rendered.surrounds scopeNamed spellable
  rw [h.unique prints]
  exact ⟨bss, bodies, surrounds⟩

/-- A statement that is filled, as all bodies inside it are, is printed as one statement. -/
theorem Stmt.PrintsAs.isStatement {s : Stmt ExprId} {ts : List Token}
    (spellable : s.Every (IsSpellable env)) (filled : s.Every (HasFilledBodies env))
    (here : s.isFilled env = true) (h : s.PrintsAs env returnType ts) :
    IsStatement s.openIfs ts := by
  induction s using Stmt.induction generalizing ts with
  | step s ih =>
    obtain ⟨bss, bodies, surrounds⟩ := h.surrounds scopeNamed spellable
    have each : ∀ b ∈ s.bodies, ∀ bs, b.PrintsAs env returnType bs → IsStatement b.openIfs bs := by
      intro b member bs prints
      have child := s.bodies_subset_children member
      exact ih b child (spellable.parts.2 b child) (filled.parts.2 b child)
        (filled.parts.1 b member) prints
    refine surrounds.isStatement here ?_
    exact ((List.forall₂_and_left _ _).2 ⟨each, bodies⟩).imp fun b bs both => both.1 bs both.2

end Statements

/-- In every statement, at any depth, all bodies are printed as single statements exactly if all of
them are filled; and no statement starts with `else`, so nothing that comes next in a list of
statements is read with what stands in front of it. What is printed is what is written. -/
theorem bodies_single_iff {env : Env} (scopeNamed : env.scope.Named) {returnType : Option Ty}
    {s : Stmt ExprId} (spellable : s.Every (Stmt.IsSpellable env))
    (rendered : s.IsRendered env returnType) :
    (s.Every (Stmt.HoldsBodies env returnType) ↔ s.Every (Stmt.HasFilledBodies env)) ∧
      (∀ ts, s.PrintsAs env returnType ts → ts.head? ≠ some (.word "else")) ∧
      ∀ w : Writer, w.returnType? = returnType → ∃ f, s.render env returnType = .ok f ∧
        (Emit.statement env s).run.run w = (.ok (), w.placeLines f.lines) := by
  refine ⟨?_, fun ts prints => ?_, fun w inForce => ?_⟩
  · induction s using Stmt.induction with
    | step s ih =>
      obtain ⟨here, below⟩ := spellable.parts
      have bodySpellable : ∀ b ∈ s.bodies, b.Every (Stmt.IsSpellable env) := fun b member =>
        below b (s.bodies_subset_children member)
      have again (t : Stmt ExprId) (member : t ∈ s.children) :=
        ih t member (below t member) (rendered.children t member)
      constructor
      · intro holds
        obtain ⟨⟨-, single⟩, inner⟩ := holds.parts
        refine .intro (fun b member => ?_) fun t member => (again t member).1 (inner t member)
        have printed := rendered.children b (s.bodies_subset_children member)
        obtain ⟨bss, bs, -, prints, surrounds⟩ :=
          printed.surrounds scopeNamed (bodySpellable b member)
        exact surrounds.isFilled (single b member bs prints)
      · intro filled
        obtain ⟨bodies, inner⟩ := filled.parts
        refine .intro ⟨rendered.surrounds scopeNamed spellable, fun b member bs prints => ?_⟩
          fun t member => (again t member).2 (inner t member)
        exact (prints.isStatement scopeNamed (bodySpellable b member)
          (inner b (s.bodies_subset_children member)) (bodies b member)).isSingle
  · obtain ⟨bss, -, surrounds⟩ := prints.surrounds scopeNamed spellable
    exact surrounds.noElse
  · obtain ⟨f, printed⟩ := rendered
    exact ⟨f, printed, Emit.run_statement (inForce ▸ printed)⟩

section Samples

/-- A condition around a loop, with an alternative. -/
def loopChoice : Stmt ExprId :=
  .branch ⟨0⟩ (.whileLoop ⟨1⟩ (.evaluate ⟨2⟩)) (some (.evaluate ⟨3⟩))

theorem bodies_single_iff_loopChoice : loopChoice.IsRendered sampleEnv none ∧
    loopChoice.Every (Stmt.HoldsBodies sampleEnv none) ∧
      ∀ ts, loopChoice.PrintsAs sampleEnv none ts → ts.head? ≠ some (.word "else") := by
  have scopeNamed : Scope.Named ⟨#[], #[]⟩ := by
    constructor <;> simp
  have rendered : loopChoice.IsRendered sampleEnv none := ⟨_, rfl⟩
  have a : sampleEnv.Fits ⟨0⟩ := sampleEnv_fits "a" rfl (by decide)
  have b : sampleEnv.Fits ⟨1⟩ := sampleEnv_fits "b" rfl (by decide)
  have x : sampleEnv.Fits ⟨2⟩ := sampleEnv_fits "x" rfl (by decide)
  have y : sampleEnv.Fits ⟨3⟩ := sampleEnv_fits "y" rfl (by decide)
  have spellable : loopChoice.Every (Stmt.IsSpellable sampleEnv) := by
    refine .intro ⟨by simpa [loopChoice, Stmt.printedValues, Stmt.values] using a, nofun⟩ ?_
    have inner : (Stmt.evaluate ⟨2⟩).Every (Stmt.IsSpellable sampleEnv) :=
      .intro ⟨by simpa [Stmt.printedValues, Stmt.values] using x, nofun⟩ nofun
    have loop : (Stmt.whileLoop ⟨1⟩ (.evaluate ⟨2⟩)).Every (Stmt.IsSpellable sampleEnv) :=
      .intro ⟨by simpa [Stmt.printedValues, Stmt.values] using b, nofun⟩ (List.forall_mem_singleton.2 inner)
    have last : (Stmt.evaluate ⟨3⟩).Every (Stmt.IsSpellable sampleEnv) :=
      .intro ⟨by simpa [Stmt.printedValues, Stmt.values] using y, nofun⟩ nofun
    exact List.forall_mem_cons.2 ⟨loop, List.forall_mem_singleton.2 last⟩
  have filled : loopChoice.Every (Stmt.HasFilledBodies sampleEnv) := by
    have leaf (id : ExprId) : (Stmt.evaluate id).Every (Stmt.HasFilledBodies sampleEnv) :=
      .intro nofun nofun
    have loop : (Stmt.whileLoop ⟨1⟩ (.evaluate ⟨2⟩)).Every (Stmt.HasFilledBodies sampleEnv) :=
      .intro (List.forall_mem_singleton.2 (by decide)) (List.forall_mem_singleton.2 (leaf _))
    exact .intro (List.forall_mem_cons.2 ⟨rfl, List.forall_mem_singleton.2 (by decide)⟩)
      (List.forall_mem_cons.2 ⟨loop, List.forall_mem_singleton.2 (leaf _)⟩)
  obtain ⟨single, noElse, -⟩ := bodies_single_iff scopeNamed spellable rendered
  exact ⟨rendered, single.2 filled, noElse⟩

/-- A condition around a constant that is folded into its uses. -/
def foldedBranch : Stmt ExprId := .branch ⟨0⟩ (.constant "k" .bool ⟨1⟩) none

/-- The constant is nothing in the text, and the statement behind the condition is its body. -/
theorem next_statement_taken :
    (Emit.statements sampleEnv [foldedBranch, .evaluate ⟨3⟩]).run.run {} =
        (.ok (), { text := "if (a)\ny;\n" }) ∧
      foldedBranch.bodies = [.constant "k" .bool ⟨1⟩] ∧
      (Stmt.constant "k" .bool ⟨1⟩).PrintsAs sampleEnv none [] ∧ ¬ IsSingle [] ∧
      Stands "if (a)\ny;\n" (.branch (.name ["a"]) (.evaluate (some (.name ["y"])))) := by
  have name (word : String) (operand : namesOperand word = true) :
      Derives (.level .statement) [.word word] (.name [word]) :=
    (Derives.name operand).ofTightAt .statement
  have value : Nests true .single ([Token.word "y"] ++ [Token.mark ";"]) (.evaluate (some (.name ["y"]))) :=
    .evaluate (by simp) (.some (name "y" (by decide)))
  exact ⟨rfl, rfl, ⟨_, rfl, .nil⟩, not_isSingle_nil,
    _, by decide, .branch (name "a" (by decide)) value⟩

end Samples

end CppPrinter
