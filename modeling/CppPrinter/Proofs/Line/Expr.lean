import CppPrinter.Proofs.Expr.Carry
import CppPrinter.Proofs.Line.Piece

/-!
# Expressions on one line

No word that a rule of printing writes has a line break (`wording_oneLine`), so an expression stands on one
line in every form if the names do that it sees and holds (`Expr.text_oneLine`).
-/

namespace CppPrinter

theorem wording_oneLine : Wording fun text _ => IsOneLine text where
  empty := by decide
  literal value := value.text_oneLine
  character c := .of_cites (cites_charLiteral c)
  resource name := .of_cites (cites_resourceReference name)
  headed lead listed _ _ h := by
    have fixed : IsOneLine lead := by
      revert lead listed
      decide +kernel
    exact fixed.append h
  followed tail listed _ _ h := by
    have fixed : IsOneLine tail := by
      revert tail listed
      decide +kernel
    exact h.append fixed
  asked query listed _ _ h := by
    have fixed : IsOneLine query := by
      revert query listed
      decide +kernel
    exact (h.append (by decide)).append fixed
  marked mark listed _ h := by
    have fixed : IsOneLine mark := by
      revert mark listed
      decide +kernel
    exact h.append fixed
  enclosed p listed _ _ h := by
    have fixed : IsOneLine p.1 ∧ IsOneLine p.2 := by
      revert p listed
      decide +kernel
    exact h.around fixed.1 fixed.2
  applied p listed _ _ _ _ h h' := by
    have fixed : IsOneLine p.1 ∧ IsOneLine p.2 := by
      revert p listed
      decide +kernel
    exact ((h.append fixed.1).append h').append fixed.2
  joined joint listed _ _ _ _ h h' := by
    have fixed : IsOneLine joint := by
      revert joint listed
      decide +kernel
    exact (h.append fixed).append h'

theorem Scope.EveryName.supplies_oneLine {scope : Scope} (names : scope.EveryName IsOneLine) :
    scope.Supplies IsOneLine fun text _ => IsOneLine text where
  names := names
  symbol := Symbol.text_oneLine names
  member op listed _ isNamed _ _ h := by
    have fixed : IsOneLine op := by
      revert op listed
      decide
    exact (h.append fixed).append isNamed.camelCase
  function isNamed := .append (by decide) isNamed.mathFunction
  newObject target := (names.className target).mono fun _ name => name.around (by decide) (by decide)
  typed ty := (ty.spelling_oneLine names false).mono fun _ spelled p listed _ _ h => by
    have fixed : IsOneLine p.1 ∧ IsOneLine p.2 := by
      revert p listed
      decide
    exact ((spelled.around fixed.1 fixed.2).append h).append (by decide)

/-- An expression stands on one line, in every form. -/
theorem Expr.text_oneLine {scope : Scope} (names : scope.EveryName IsOneLine) {e : Expr}
    (named : e.Every fun n => ∀ name ∈ n.shape.names, IsOneLine name) (form : Form)
    (position : Precedence) : Gives IsOneLine (e.text scope form position) :=
  Expr.text_carries wording_oneLine names.supplies_oneLine named form position

end CppPrinter
