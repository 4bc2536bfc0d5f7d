import CppPrinter.Proofs.Line.Expr
import CppPrinter.Proofs.Stmt.Carry

/-!
# Statements on whole lines

Where no name has a line break, the lines of a statement are lines of the text, and none of them is a blank
one (`Stmt.render_oneLine`). There is at least one, but for a constant that is folded into its uses, and an
expression or a variable takes exactly one (`Stmt.render_shape`).
-/

namespace CppPrinter

theorem framing_oneLine : Framing IsOneLine where
  alone text listed := by
    revert text listed
    decide
  headed lead listed _ h := by
    have fixed : IsOneLine lead := by
      revert lead listed
      decide
    exact fixed.append h
  followed tail listed _ h := by
    have fixed : IsOneLine tail := by
      revert tail listed
      decide
    exact h.append fixed
  joined joint listed _ _ h h' := by
    have fixed : IsOneLine joint := by
      revert joint listed
      decide
    exact (h.append fixed).append h'

namespace Env

variable {env : Env} (names : env.EveryName IsOneLine)

include names

theorem text_oneLine (id : ExprId) (form : Form) : Gives IsOneLine (env.text id form) := by
  rw [Env.text_eq]
  exact Expr.text_oneLine names.scope (names.tree id) form .statement

theorem initializer_oneLine (name : String) (ty : Ty) (value : Option ExprId) :
    Gives IsOneLine (env.initializer name ty value) := by
  unfold initializer
  split
  · exact .ok (by decide)
  · refine .after fun n => ?_
    split
    · split
      · exact .ok (by decide)
      · exact .error _
    · exact .error _
  · exact (text_oneLine names _ _).bind fun _ text => .ok (text.around (by decide) (by decide))
  · exact (text_oneLine names _ _).bind fun _ text => .ok (.append (by decide) text)

theorem supplies_oneLine (returnType : Option Ty) : env.Supplies returnType IsOneLine IsOneLine where
  plain id := text_oneLine names id .plain
  returned id := by
    cases returnType with
    | none => exact text_oneLine names id .plain
    | some ty => exact text_oneLine names id (.coerced ty)
  declare h ty value := (ty.declaration_oneLine names.scope h).bind fun _ declared =>
    (initializer_oneLine names _ ty value).bind fun _ initial => .ok (declared.append initial)
  constant h ty value := (ty.declaration_oneLine names.scope h).bind fun _ declared =>
    (text_oneLine names value .plain).bind fun _ text =>
      .ok (((declared.around (by decide) (by decide)).append text).append (by decide))

end Env

namespace Stmt

/-- A local constant that takes no storage, for it is no inline array. -/
def IsFolded {ρ : Type} : Stmt ρ → Prop
  | constant _ ty _ => ty.isArrayStorage = false
  | _ => False

/-- An expression, or the declaration of a variable. -/
def IsSimple {ρ : Type} : Stmt ρ → Prop
  | evaluate _ | declare .. => True
  | _ => False

/-- A statement takes a line, unless it is a constant that is folded into its uses, and just one if it is
an expression or a variable. -/
theorem render_shape (env : Env) (returnType : Option Ty) (s : Stmt ExprId) :
    Gives (fun f => (f.lines = [] ↔ s.IsFolded) ∧ (s.IsSimple → f.lines.length = 1))
      (s.render env returnType) := by
  have filled : ∀ {l : Line} {ls : List Line}, (l :: ls = [] ↔ False) := by simp
  cases s with
  | block body => exact .after fun fs => .ok ⟨filled, False.elim⟩
  | declare name ty value => exact .after fun text => .ok ⟨filled, fun _ => rfl⟩
  | evaluate value => exact .after fun text => .ok ⟨filled, fun _ => rfl⟩
  | constant name ty value =>
    have folded : Gives (fun ls : List Line => ls = [] ↔ ty.isArrayStorage = false)
        (env.localConstant name ty value) := by
      unfold Env.localConstant
      split
      · rename_i stored
        exact .after fun text => .ok (by simp [stored])
      · rename_i noStorage
        exact .ok (by simp [noStorage])
    exact folded.bind fun ls h => .ok ⟨h, False.elim⟩
  | ret value =>
    cases value with
    | none => exact .ok ⟨filled, False.elim⟩
    | some id => exact .after fun text => .ok ⟨filled, False.elim⟩
  | branch test positive negative =>
    refine .after fun condition => .after fun f => .after fun f? => .ok ⟨?_, False.elim⟩
    cases f? <;> exact filled
  | whileLoop test body =>
    exact .after fun condition => .after fun f => .ok ⟨filled, False.elim⟩
  | doLoop body test =>
    exact .after fun f => .after fun condition => .ok ⟨filled, False.elim⟩
  | forLoop start test advance body =>
    exact .after fun first => .after fun condition => .after fun step => .after fun f =>
      .ok ⟨filled, False.elim⟩
  | switch value cases otherwise =>
    exact .after fun chosen => .after fun groups => .after fun last =>
      .ok ⟨filled, False.elim⟩
  | breakLoop | continueLoop | throwing => exact .ok ⟨filled, False.elim⟩

section Rows

variable {env : Env} (names : env.EveryName IsOneLine) (returnType : Option Ty)

include names

/-- The lines of a statement are lines of the text. -/
theorem render_oneLine {s : Stmt ExprId} (locals : s.EveryName IsOneLine) :
    Gives (fun f => Carry IsOneLine f.lines) (s.render env returnType) :=
  (render_carries framing_oneLine (Env.supplies_oneLine names returnType) locals).mono
    fun _ carried => carried.lines framing_oneLine

theorem bodyLines_oneLine {body : List (Stmt ExprId)} (locals : ∀ s ∈ body, s.EveryName IsOneLine) :
    Gives (Carry IsOneLine) (bodyLines env returnType body) :=
  bodyLines_carry framing_oneLine (Env.supplies_oneLine names returnType) locals

end Rows

end Stmt

end CppPrinter
