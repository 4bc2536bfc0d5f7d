import CppPrinter.Proofs.Bracket.Piece
import CppPrinter.Proofs.Expr.Carry

/-!
# Expressions without loose brackets

The words that a rule of printing writes close what they open and keep off what they would be read together
with (`wording_closed`). So the text of an expression, in every form, is fit to stand for an operand where
names are identifiers (`Expr.text_closed`).
-/

namespace CppPrinter

theorem wording_closed : Wording fun text _ => IsClosed text where
  empty := by decide
  literal value := value.text_closed
  character c := isClosed_charLiteral c
  resource name := isClosed_resourceReference name
  headed lead listed _ _ h := by
    have fixed : Leads freely [] lead [] freely := by
      revert lead listed
      decide +kernel
    exact h.headed lead fixed
  followed tail listed _ _ h := by
    have fixed : Leads softly [] tail [] softly := by
      revert tail listed
      decide +kernel
    exact h.followed tail fixed
  asked query listed _ _ h := by
    have named : IsNaming query := by
      revert query listed
      decide +kernel
    exact h.member (by decide) named
  marked mark listed _ h := by
    have fixed : Leads softly [] mark [] softly := by
      revert mark listed
      decide +kernel
    exact h.followed mark fixed
  enclosed p listed _ _ h := by
    have fixed : Leads freely [] p.1 [')'] freely ∧ Leads softly [')'] p.2 [] softly ∨
        Leads freely [] p.1 ['\x7d'] freely ∧ Leads softly ['\x7d'] p.2 [] softly := by
      revert p listed
      decide +kernel
    rcases fixed with ⟨opens, closes⟩ | ⟨opens, closes⟩
    · exact h.around p.1 ')' opens closes
    · exact h.around p.1 '\x7d' opens closes
  applied p listed _ _ _ _ h h' := by
    have fixed : Leads softly [] p.1 [')'] freely ∧ Leads softly [')'] p.2 [] softly ∨
        Leads softly [] p.1 [']'] freely ∧ Leads softly [']'] p.2 [] softly := by
      revert p listed
      decide +kernel
    rcases fixed with ⟨opens, closes⟩ | ⟨opens, closes⟩
    · exact ((h.append opens).append (h'.frame [')'])).append closes
    · exact ((h.append opens).append (h'.frame [']'])).append closes
  joined joint listed _ _ _ _ h h' := by
    have fixed : Leads softly [] joint [] freely := by
      revert joint listed
      decide +kernel
    exact (h.append fixed).append h'

theorem Scope.supplies_closed {scope : Scope} (scopeNamed : scope.EveryName IsIdentifier) :
    scope.Supplies IsIdentifier fun text _ => IsClosed text where
  names := scopeNamed
  symbol := Symbol.text_closed scopeNamed
  member op listed _ isNamed _ _ h := by
    have fixed : Leads softly [] op [] anyhow := by
      revert op listed
      decide
    exact h.member fixed isNamed.isWord.camelCase.isNaming
  function isNamed := (isNamed.isWord.mathFunction.isNaming.headed "std::" (by decide)).isClosed
  newObject target := (scope.className_naming scopeNamed target).mono fun _ name => by
    have front := name.leadsFrom "std::make_shared<" (by decide)
    exact front.append (by decide)
  typed ty := (ty.spelling_naming scopeNamed false).mono fun _ spelled p listed _ _ h => by
    obtain ⟨opens, between⟩ :
        Leads freely [] p.1 [] anyhow ∧ Leads plainly [] p.2 [')'] freely := by
      revert p listed
      decide +kernel
    exact (((spelled.leadsFrom p.1 opens).append between).append (h.frame [')'])).append (by decide)

/-- All texts of an expression are closed. -/
theorem Expr.text_closed {scope : Scope} (scopeNamed : scope.EveryName IsIdentifier) {e : Expr}
    (named : e.Every fun n => ∀ name ∈ n.shape.names, IsIdentifier name) (form : Form)
    (position : Precedence) : Gives IsClosed (e.text scope form position) :=
  Expr.text_carries wording_closed (scope.supplies_closed scopeNamed) named form position

end CppPrinter
