import CppPrinter.Expr.Basic
import CppPrinter.Stmt.Basic

/-!
# Why a program cannot be printed

Every error ends the printing: the first one found is the answer, and no text is kept.
-/

namespace CppPrinter

/-- Parts of a program that have no printed form. -/
inductive Unsupported where
  /-- An unsigned integer of 32 or 64 bits. -/
  | unsignedInteger (bits : Nat)
  /-- The type of null, where a type has to be spelled. -/
  | nullType
  /-- A floating literal that is infinite or not a number. -/
  | nonFinite (value : Binary64)
  /-- A symbol of the library outside a call or a member access. -/
  | librarySymbol (target : Symbol)
  /-- A member access to a symbol that is no member. -/
  | memberAccess (target : Symbol)
  /-- A list of elements for a type that has none. -/
  | aggregateOf (ty : Ty)
  | libraryMethod (name : String)
  | arity (method : String) (found expected : Nat)
  /-- A method that needs a body and has none. -/
  | missingBody (className method : String)
  /-- A loop that starts with a statement that does not fit into its head. -/
  | loopStart (start : Stmt ExprId)

/-- Why a program cannot be printed. -/
inductive RenderError where
  /-- A position was looked up at which there is nothing. -/
  | dangling
  /-- The class needs its own definition before itself. -/
  | circularDependency (className : String)
  /-- An inline array starts with something else than null, zero or false. -/
  | arrayInitializer (name : String)
  | unsupported (cause : Unsupported)

/-- A result, or the reason why there is none. -/
abbrev Rendered (α : Type) := Except RenderError α

/-- Ends the printing at a part that has no printed form. -/
def unsupported {α : Type} (cause : Unsupported) : Rendered α := .error (.unsupported cause)

/-- The entry of a table at a position. -/
def lookUp {α : Type} (table : Array α) (index : Nat) : Rendered α :=
  match table[index]? with
  | some entry => .ok entry
  | none => .error .dangling

theorem lookUp_eq_ok_iff {α : Type} {table : Array α} {index : Nat} {entry : α} :
    lookUp table index = .ok entry ↔ table[index]? = some entry := by
  unfold lookUp
  split <;> simp_all

/-- Only a position outside the table has no entry. -/
theorem lookUp_eq_error_iff {α : Type} {table : Array α} {index : Nat} {e : RenderError} :
    lookUp table index = .error e ↔ table.size ≤ index ∧ e = .dangling := by
  unfold lookUp
  split
  · rename_i h
    obtain ⟨inside, -⟩ := Array.getElem?_eq_some_iff.1 h
    simp [Nat.not_le.2 inside]
  · rename_i h
    simp [Array.getElem?_eq_none_iff.1 h, eq_comm]

end CppPrinter
