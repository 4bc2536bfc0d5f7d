import CppPrinter.Proofs.Reading.Token
import CppPrinter.Proofs.Stmt.Fragment

/-!
# Tokens of lines

Lines are read one after the other, however deep they stand (`LinesSpell`). A fragment keeps its
tokens wherever it is put: by itself, below a header, behind an `else` or in a loop that asks at its
end.
-/

namespace CppPrinter

/-- The lines are read as the tokens. -/
inductive LinesSpell : List Line → List Token → Prop where
  | nil : LinesSpell [] []
  | code {text : String} {rest : List Line} {ts us : List Token} (depth : Nat) :
      Spells text ts → LinesSpell rest us → LinesSpell (.code depth text :: rest) (ts ++ us)

/-- Tabs have no tokens. -/
theorem spells_tabs (depth : Nat) : Spells (String.ofList (List.replicate depth '\t')) [] ∧
    tailOf (String.ofList (List.replicate depth '\t')) = .blank := by
  have scanned : Pending.blank.scan (List.replicate depth '\t') = ([], .blank) := by
    induction depth with
    | zero => rfl
    | succ depth ih =>
      rw [List.replicate_succ, Pending.blank_scan_cons]
      exact ih
  have tail : tailOf (String.ofList (List.replicate depth '\t')) = .blank := by
    rw [tailOf, String.toList_ofList, scanned]
  refine ⟨⟨by rw [tail]; rfl, ?_⟩, tail⟩
  rw [tail, String.toList_ofList, scanned]
  rfl

/-- A line is read as its text, wherever it is placed. -/
theorem Spells.place {text : String} {ts : List Token} (h : Spells text ts) (depth below : Nat) :
    Spells (String.ofList ((Line.code below text).place depth)) ts ∧
      tailOf (String.ofList ((Line.code below text).place depth)) = .blank := by
  obtain ⟨tabs, blank⟩ := spells_tabs (depth + below)
  have ended : Spells "\n" [] := by decide
  have shape : String.ofList ((Line.code below text).place depth) =
      String.ofList (List.replicate (depth + below) '\t') ++ text ++ "\n" := by
    simp [Line.place, String.ofList_append, String.append_assoc]
  have line := tabs.free_append h (by rw [blank]; rfl)
  rw [shape]
  refine ⟨by simpa using line.append_splits ended (by decide), ?_⟩
  rw [tailOf_append_splits line (by decide)]
  decide

namespace LinesSpell

variable {front back lines : List Line} {ts us : List Token}

theorem flush {text : String} (h : Spells text ts) (rest : LinesSpell lines us) :
    LinesSpell (.flush text :: lines) (ts ++ us) :=
  .code 0 h rest

theorem single {text : String} (h : Spells text ts) : LinesSpell [.flush text] ts := by
  simpa using flush h .nil

theorem append (h : LinesSpell front ts) (h' : LinesSpell back us) :
    LinesSpell (front ++ back) (ts ++ us) := by
  induction h with
  | nil => exact h'
  | code depth spells _ ih =>
    rw [List.append_assoc]
    exact .code depth spells ih

/-- How deep lines stand has no part in their tokens. -/
theorem indented (h : LinesSpell lines ts) : LinesSpell (indented lines) ts := by
  induction h with
  | nil => exact .nil
  | code depth spells _ ih => exact .code (depth + 1) spells ih

/-- Lines are read as their tokens, wherever they are placed. -/
theorem spells (h : LinesSpell lines ts) (depth : Nat) :
    Spells (String.ofList (lines.flatMap (Line.place depth))) ts := by
  induction h with
  | nil => exact (by decide : Spells "" [])
  | @code text rest ts us below spells _ ih =>
    obtain ⟨line, blank⟩ := spells.place depth below
    rw [List.flatMap_cons, String.ofList_append]
    exact line.free_append ih (by rw [blank]; rfl)

end LinesSpell

namespace Fragment

/-- The fragment is read as the tokens. -/
inductive Spells : Fragment → List Token → Prop where
  | block {body : List Line} {ts : List Token} : LinesSpell body ts →
      Spells (.block body) (.mark "\x7b" :: (ts ++ [Token.mark "\x7d"]))
  | conditional {first : String} {rest : List Line} {ts us : List Token} :
      CppPrinter.Spells first ts → LinesSpell rest us → Spells (.conditional first rest) (ts ++ us)
  | plain {lines : List Line} {ts : List Token} : LinesSpell lines ts → Spells (.plain lines) ts

/-- The tokens of a fragment below a header: those that go on the header's line, those of the lines
below it, and those of the brace that closes a block. -/
structure IsBelow (f : Fragment) (us vs ws : List Token) : Prop where
  headed : ∀ {header hs}, CppPrinter.Spells header hs →
    CppPrinter.Spells (f.headed header) (hs ++ us)
  inner : LinesSpell f.inner vs
  closing : LinesSpell f.closing ws
  followedBy : ∀ {next xs}, CppPrinter.Spells next xs →
    CppPrinter.Spells (f.followedBy next) (ws ++ xs)

namespace Spells

variable {f g : Fragment} {header lead condition : String} {hs ls cs ts us : List Token}

theorem lines (h : f.Spells ts) : LinesSpell f.lines ts := by
  cases h with
  | block body =>
    have opened : CppPrinter.Spells "\x7b" [.mark "\x7b"] := by decide
    have closed : CppPrinter.Spells "\x7d" [.mark "\x7d"] := by decide
    exact .flush opened (body.indented.append (.single closed))
  | conditional first rest => exact .flush first rest
  | plain lines => exact lines

theorem below (h : f.Spells ts) : ∃ us vs ws, ts = us ++ (vs ++ ws) ∧ f.IsBelow us vs ws := by
  cases h with
  | @block body bs lines =>
    have opened : CppPrinter.Spells " \x7b" [.mark "\x7b"] := by decide
    have closed : CppPrinter.Spells "\x7d" [.mark "\x7d"] := by decide
    have spaced : CppPrinter.Spells "\x7d " [.mark "\x7d"] := by decide
    refine ⟨[.mark "\x7b"], bs, [.mark "\x7d"], rfl, ?_, lines.indented, .single closed, ?_⟩
    · intro header hs head
      exact head.append_splits opened (by decide)
    · intro next xs behind
      exact spaced.free_append behind (by decide)
  | @conditional first rest ts us spells lines =>
    refine ⟨[], ts ++ us, [], (List.append_nil _).symm, ?_, ?_, .nil, fun behind => behind⟩
    · intro header hs head
      simpa [Fragment.headed] using head
    · exact (LinesSpell.flush spells lines).indented
  | plain lines =>
    refine ⟨[], ts, [], (List.append_nil _).symm, ?_, lines.indented, .nil, fun behind => behind⟩
    intro header hs head
    simpa [Fragment.headed] using head

/-- Below a header. -/
theorem under (h : f.Spells ts) (head : CppPrinter.Spells header hs) :
    LinesSpell (f.under header) (hs ++ ts) := by
  obtain ⟨us, vs, ws, rfl, below⟩ := h.below
  have whole := LinesSpell.flush (below.headed head) (below.inner.append below.closing)
  rwa [List.append_assoc] at whole

/-- Behind a text that ends in `else`. -/
theorem asElse (h : f.Spells ts) (head : CppPrinter.Spells lead ls) :
    LinesSpell (f.asElse lead) (ls ++ ts) := by
  cases h with
  | @conditional first rest ts us spells lines =>
    have space : CppPrinter.Spells " " [] := by decide
    have spaced := head.append_splits space (by decide)
    have free : (tailOf (lead ++ " ")).isFree = true := by
      rw [tailOf_append_splits head (by decide)]
      decide
    have whole := LinesSpell.flush (spaced.free_append spells free) lines
    rwa [List.append_nil, List.append_assoc] at whole
  | block lines => exact under (.block lines) head
  | plain lines => exact under (.plain lines) head

/-- A condition without an alternative. -/
theorem ofBranch (h : f.Spells ts) (head : CppPrinter.Spells header hs) :
    (Fragment.ofBranch header f none).Spells (hs ++ ts) := by
  obtain ⟨us, vs, ws, rfl, below⟩ := h.below
  have whole := Spells.conditional (below.headed head) (below.inner.append below.closing)
  rwa [List.append_assoc] at whole

/-- A condition with an alternative. -/
theorem ofChoice (h : f.Spells ts) (h' : g.Spells us) (head : CppPrinter.Spells header hs) :
    (Fragment.ofBranch header f (some g)).Spells (hs ++ (ts ++ .word "else" :: us)) := by
  obtain ⟨opening, body, closing, rfl, below⟩ := h.below
  have lead : CppPrinter.Spells "else" [.word "else"] := by decide
  have otherwise := h'.asElse (below.followedBy lead)
  have whole := Spells.conditional (below.headed head) (below.inner.append otherwise)
  simpa [Fragment.ofBranch] using whole

/-- A loop that asks at its end. -/
theorem ofDoLoop (h : f.Spells ts) (behind : CppPrinter.Spells condition cs) :
    (Fragment.ofDoLoop f condition).Spells (.word "do" :: (ts ++ cs)) := by
  obtain ⟨opening, body, closing, rfl, below⟩ := h.below
  have lead : CppPrinter.Spells "do" [.word "do"] := by decide
  have last := LinesSpell.single (below.followedBy behind)
  have whole := Spells.plain (LinesSpell.flush (below.headed lead) (below.inner.append last))
  simpa [Fragment.ofDoLoop] using whole

end Spells

end Fragment

end CppPrinter
