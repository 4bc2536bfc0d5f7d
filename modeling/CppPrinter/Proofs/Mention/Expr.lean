import CppPrinter.Proofs.Expr.Carry
import CppPrinter.Proofs.Mention.Piece

/-!
# What the text of an expression refers to

The words that a rule of printing writes refer to nothing and do not run together with what stands beside
them (`wording_cites`). So the text of an expression, in every form, refers to the resources that the
expression mentions and to no others (`Expr.text_cites`).
-/

namespace CppPrinter

theorem wording_cites : Wording Cites where
  empty := .of_plain (by decide)
  literal value := value.text_cites
  character c := cites_charLiteral c
  resource name := cites_resourceReference name
  headed lead listed _ _ h := by
    have fixed : IsLead lead := by
      revert lead listed
      decide +kernel
    exact h.headed fixed
  followed tail listed _ _ h := by
    have fixed : IsTail tail := by
      revert tail listed
      decide +kernel
    exact h.followed fixed
  asked query listed _ _ h := by
    have plain : IsPlain query := by
      revert query listed
      decide +kernel
    exact h.before (by decide) (.of_plain plain)
  marked mark listed _ h := by
    obtain ⟨inside, ends⟩ : (∀ c ∈ mark.toList, inWord c = true) ∧
        mark.toList.getLast? ≠ resourceNamespace.toList.getLast? := by
      revert mark listed
      decide +kernel
    exact h.suffixed inside ends
  enclosed p listed _ _ h := by
    obtain ⟨opens, closes⟩ : IsLead p.1 ∧ IsTail p.2 := by
      revert p listed
      decide +kernel
    exact (h.headed opens).followed closes
  applied p listed _ _ _ _ h h' := by
    obtain ⟨opens, closes⟩ : IsJoint p.1 ∧ IsTail p.2 := by
      revert p listed
      decide +kernel
    exact (h.joined opens h').followed closes
  joined joint listed _ _ _ _ h h' := by
    have fixed : IsJoint joint := by
      revert joint listed
      decide +kernel
    exact h.joined fixed h'

theorem Scope.EveryName.supplies_cites {scope : Scope} (names : scope.EveryName IsOrdinary) :
    scope.Supplies IsOrdinary Cites where
  names := names
  symbol := Symbol.text_cites names
  member op listed _ isNamed _ _ h := by
    have fixed : IsJoint op := by
      revert op listed
      decide
    exact h.before fixed (.member isNamed)
  function isNamed := (Cites.function isNamed).headed (by decide)
  newObject target := (names.className target).mono fun _ name =>
    ((Cites.ordinary name).headed (by decide)).followed (by decide)
  typed ty := (ty.spelling_cites names false).mono fun _ spelled p listed _ _ h => by
    obtain ⟨opens, between⟩ : IsLead p.1 ∧ IsJoint p.2 := by
      revert p listed
      decide
    exact (h.behind between (spelled.headed opens)).followed (by decide)

/-- An expression refers to what it mentions, in every form. -/
theorem Expr.text_cites {scope : Scope} (names : scope.EveryName IsOrdinary) {e : Expr}
    (named : e.Every fun n => ∀ name ∈ n.shape.names, IsOrdinary name) (form : Form)
    (position : Precedence) : Gives (Cites · e.mentioned) (e.text scope form position) :=
  Expr.text_carries wording_cites names.supplies_cites named form position

end CppPrinter
