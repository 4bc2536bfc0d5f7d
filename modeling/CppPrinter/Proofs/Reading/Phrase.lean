import CppPrinter.Expr.Operator
import CppPrinter.Proofs.Reading.Token
import Mathlib.Data.List.Forall2

/-!
# Texts of operands, put together

A phrase is a text that can be an operand: it starts like one, it ends like one, and its tokens are
known (`Phrase`). The ways in which the printer puts phrases together make phrases again, and their
tokens stay apart: behind a phrase comes a separator or a mark that no token at its end goes on
with, and in front of it stands a separator, or a sign that its first character does not go on with.
-/

namespace CppPrinter

/-- The symbol of an operator between two operands. -/
def BinaryOp.symbol : BinaryOp → String
  | arith op => op.symbol
  | and => "&&"
  | or => "||"
  | order op => op.symbol
  | eq => "=="
  | notEq => "!="
  | index => "[]"
  | assign => "="
  | update op => op.symbol ++ "="

/-- The level of an operator between two operands. -/
def BinaryOp.level : BinaryOp → Precedence
  | arith op => op.precedence
  | and => .condAnd
  | or => .condOr
  | order _ => .rel
  | eq | notEq => .equality
  | index => .primary
  | assign | update _ => .assign

/-- The characters that an operand may start with. -/
def startsOperand (c : Char) : Bool :=
  startsWord c || c.isDigit || decide (c ∈ ['(', '\x7b', '\x22', '\x27', '-', '!', '~', '+', '&'])

/-- The text starts like an operand. -/
def Opens (text : String) : Prop := ∃ c ∈ text.toList.head?, startsOperand c = true

instance (text : String) : Decidable (Opens text) :=
  decidable_of_iff (text.toList.head?.any startsOperand)
    (by cases h : text.toList.head? <;> simp [Opens, h])

/-- A text that is an operand by its looks, with its tokens. -/
structure Phrase (text : String) (ts : List Token) : Prop where
  spells : Spells text ts
  opens : Opens text
  ends : (tailOf text).endsOperand = true

theorem Opens.append {front : String} (h : Opens front) (back : String) : Opens (front ++ back) := by
  obtain ⟨c, first, starts⟩ := h
  refine ⟨c, ?_, starts⟩
  rw [String.toList_append, List.head?_append]
  simp [Option.mem_def.1 first]

theorem Opens.ne_empty {text : String} (h : Opens text) : text ≠ "" := by
  rintro rfl
  obtain ⟨c, first, -⟩ := h
  cases first

namespace Phrase

variable {text left right : String} {ts ls rs : List Token}

/-- Behind a phrase, the marks of a step, an arrow and a scope start a new token. -/
theorem joins_joint (h : Phrase text ts) {back : String} {c : Char}
    (first : back.toList.head? = some c) (joint : c ∈ ['+', '-', ':', '>']) :
    Joins text back := by
  intro d first'
  rw [first] at first'
  cases first'
  exact Pending.grow?_joint h.ends joint

/-- A phrase with something behind it that makes it another phrase. -/
theorem append {back : String} {us : List Token} (h : Phrase text ts) (h' : Spells back us)
    (joins : Joins text back) (some : back ≠ "") (ends : (tailOf back).endsOperand = true) :
    Phrase (text ++ back) (ts ++ us) where
  spells := h.spells.append h' joins
  opens := h.opens.append back
  ends := by rw [joins.tailOf_append some]; exact ends

/-- A phrase behind something that makes it another phrase. -/
theorem prepend {front : String} {us : List Token} (h' : Spells front us) (opens : Opens front)
    (joins : Joins front text) (h : Phrase text ts) : Phrase (front ++ text) (us ++ ts) where
  spells := h'.append h.spells joins
  opens := opens.append text
  ends := by rw [joins.tailOf_append h.opens.ne_empty]; exact h.ends

/-- Two phrases with something between them that starts and ends apart. -/
theorem middle {mid : String} {ms : List Token} (h : Phrase left ls) (h' : Spells mid ms)
    (splits : Splits mid) (free : (tailOf mid).isFree = true) (h'' : Phrase right rs) :
    Phrase (left ++ mid ++ right) (ls ++ ms ++ rs) where
  spells := (h.spells.append_splits h' splits).free_append h''.spells
    (by rw [tailOf_append_splits h.spells splits]; exact free)
  opens := (h.opens.append mid).append right
  ends := by
    have free' : (tailOf (left ++ mid)).isFree = true := by
      rw [tailOf_append_splits h.spells splits]
      exact free
    rw [(Joins.of_free free').tailOf_append h''.opens.ne_empty]
    exact h''.ends

/-- Anything behind an opening bracket and in front of a closing one. -/
theorem enclosed {front back inner : String} {us is vs : List Token} (h : Spells front us)
    (free : (tailOf front).isFree = true) (opens : Opens front) (h' : Spells inner is)
    (h'' : Spells back vs) (splits : Splits back) (ends : (tailOf back).endsOperand = true) :
    Phrase (front ++ inner ++ back) (us ++ is ++ vs) where
  spells := (h.free_append h' free).append_splits h'' splits
  opens := (opens.append inner).append back
  ends := by
    rw [tailOf_append_splits (h.free_append h' free) splits]
    exact ends

theorem paren {inner : String} {is : List Token} (h : Spells inner is) :
    Phrase ("(" ++ inner ++ ")") (.mark "(" :: (is ++ [Token.mark ")"])) := by
  have opened : Spells "(" [.mark "("] := by decide
  have closed : Spells ")" [.mark ")"] := by decide
  exact enclosed opened (by decide) (by decide) h closed (by decide) (by decide)

/-- A phrase with brackets behind it. -/
theorem bracket {inner opening closing : String} {is us vs : List Token} (h : Phrase text ts)
    (opened : Spells opening us) (splits : Splits opening) (free : (tailOf opening).isFree = true)
    (h' : Spells inner is) (closed : Spells closing vs) (splits' : Splits closing)
    (ends : (tailOf closing).endsOperand = true) :
    Phrase (text ++ opening ++ inner ++ closing) (ts ++ us ++ is ++ vs) := by
  have free' : (tailOf (text ++ opening)).isFree = true := by
    rw [tailOf_append_splits h.spells splits]
    exact free
  exact enclosed (h.spells.append_splits opened splits) free' (h.opens.append opening) h' closed
    splits' ends

theorem index {inner : String} {is : List Token} (h : Phrase text ts) (h' : Spells inner is) :
    Phrase (text ++ "[" ++ inner ++ "]") (ts ++ .mark "[" :: (is ++ [Token.mark "]"])) := by
  have opened : Spells "[" [.mark "["] := by decide
  have closed : Spells "]" [.mark "]"] := by decide
  simpa using h.bracket opened (by decide) (by decide) h' closed (by decide) (by decide)

theorem call {arguments : String} {us : List Token} (h : Phrase text ts)
    (h' : Spells arguments us) :
    Phrase (text ++ "(" ++ arguments ++ ")") (ts ++ .mark "(" :: (us ++ [Token.mark ")"])) := by
  have opened : Spells "(" [.mark "("] := by decide
  have closed : Spells ")" [.mark ")"] := by decide
  simpa using h.bracket opened (by decide) (by decide) h' closed (by decide) (by decide)

theorem between {symbol : String} (spaced : Spells (" " ++ symbol) [.mark symbol])
    (h : Phrase left ls) (h' : Phrase right rs) :
    Phrase (between left symbol right) (ls ++ .mark symbol :: rs) := by
  have shape : CppPrinter.between left symbol right = left ++ (" " ++ symbol ++ " ") ++ right := by
    simp [CppPrinter.between, String.append_assoc]
  have splits : Splits " " := by decide
  have space : Spells " " [] := by decide
  have mid : Spells (" " ++ symbol ++ " ") [.mark symbol] := by
    simpa using spaced.append_splits space splits
  have free : (tailOf (" " ++ symbol ++ " ")).isFree = true := by
    rw [tailOf_append_splits spaced splits]
    decide
  have splits' : Splits (" " ++ symbol ++ " ") := by
    refine ⟨' ', ?_, by decide⟩
    rw [String.append_assoc, String.toList_append]
    rfl
  rw [shape]
  simpa using h.middle mid splits' free h'

theorem cond {test positive negative : String} {cs es : List Token} (h : Phrase test cs)
    (h' : Phrase positive ts) (h'' : Phrase negative es) :
    Phrase (test ++ " ? " ++ positive ++ " : " ++ negative)
      (cs ++ .mark "?" :: (ts ++ .mark ":" :: es)) := by
  have asked : Spells " ? " [.mark "?"] := by decide
  have answered : Spells " : " [.mark ":"] := by decide
  have first := h.middle asked (by decide) (by decide) h'
  simpa using first.middle answered (by decide) (by decide) h''

theorem step (op : StepOp) (h : Phrase text ts) :
    Phrase (text ++ op.symbol) (ts ++ [Token.mark op.symbol]) := by
  cases op with
  | increment =>
    exact h.append (by decide) (h.joins_joint rfl (by decide)) (by decide) (by decide)
  | decrement =>
    exact h.append (by decide) (h.joins_joint rfl (by decide)) (by decide) (by decide)

/-- A sign keeps off what follows it, unless both would run together. -/
theorem joins_sign (op : UnaryOp) (h : Phrase text ts) (apart : signsMerge op.symbol text = false) :
    Joins op.symbol text := by
  obtain ⟨c, first, starts⟩ := h.opens
  have noOther : c ≠ '=' ∧ c ≠ '>' ∧ c ≠ '*' := by
    refine ⟨?_, ?_, ?_⟩ <;> · rintro rfl; revert starts; decide
  have tail : tailOf op.symbol = .mark op.symbol.toList := by cases op <;> decide
  intro d first'
  cases Option.mem_unique first first'
  rw [tail]
  have apart' : signsMerge op.symbol text =
      ((op.symbol.toList.head? == some '-' && c == '-') ||
        (op.symbol.toList.head? == some '+' && c == '+')) := by
    rw [signsMerge, Option.mem_def.1 first]
    cases op <;> rfl
  rw [apart'] at apart
  cases op with
  | neg =>
    have noMinus : c ≠ '-' := by simpa [UnaryOp.symbol] using apart
    simp [UnaryOp.symbol, Pending.grow?, marks, noOther, noMinus]
  | not => simp [UnaryOp.symbol, Pending.grow?, marks, noOther]
  | bitNot => simp [UnaryOp.symbol, Pending.grow?, marks]
  | increment => simp [UnaryOp.symbol, Pending.grow?, marks]
  | decrement => simp [UnaryOp.symbol, Pending.grow?, marks]

theorem sign (op : UnaryOp) (h : Phrase text ts) (apart : signsMerge op.symbol text = false) :
    Phrase (op.symbol ++ text) (.mark op.symbol :: ts) := by
  have spells : Spells op.symbol [.mark op.symbol] := by cases op <;> decide
  exact prepend spells (by cases op <;> decide) (h.joins_sign op apart) h

theorem signParen (op : UnaryOp) (h : Phrase text ts) :
    Phrase (op.symbol ++ "(" ++ text ++ ")")
      (.mark op.symbol :: .mark "(" :: (ts ++ [Token.mark ")"])) := by
  have apart : signsMerge op.symbol ("(" ++ text ++ ")") = false := by
    cases op <;> simp [signsMerge, UnaryOp.symbol]
  have whole := (paren h.spells).sign op apart
  rwa [← String.append_assoc, ← String.append_assoc] at whole

end Phrase

/-- The tokens of a list with commas between its items. -/
def listed : List (List Token) → List Token
  | [] => []
  | [ts] => ts
  | ts :: rest => ts ++ .mark "," :: listed rest

/-- Texts in a row, separated by commas. -/
theorem Spells.intercalate {texts : List String} {tss : List (List Token)}
    (h : List.Forall₂ Phrase texts tss) : Spells (", ".intercalate texts) (listed tss) := by
  induction h with
  | nil =>
    rw [String.intercalate_nil]
    decide
  | @cons text ts texts tss phrase rest ih =>
    cases rest with
    | nil =>
      rw [String.intercalate_singleton]
      exact phrase.spells
    | cons second others =>
      rw [String.intercalate_cons_cons]
      have separator : Spells ", " [.mark ","] := by decide
      have comma := phrase.spells.append_splits separator (by decide)
      have free : (tailOf (text ++ ", ")).isFree = true := by
        rw [tailOf_append_splits phrase.spells (by decide)]
        decide
      simpa [listed] using comma.free_append ih free

end CppPrinter
