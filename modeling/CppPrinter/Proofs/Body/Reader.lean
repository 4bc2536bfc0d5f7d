import CppPrinter.Proofs.Reading.Balance

/-!
# How far a statement goes

One statement is read off the front of the tokens, and `ReadsOff` says which tokens are left. A block
ends at the brace that closes it, and a statement without a word of its own at the first semicolon;
under a header another statement is read, and an `else` behind a condition goes on with it. So it
depends on what comes next where a statement ends (`Absorbs`): each condition without an alternative
at its end takes an `else` in front of it. Nothing else behind a statement belongs to it
(`IsStatement.isSingle`).
-/

namespace CppPrinter

/-- The words of statements that do not end at the first semicolon. -/
def compoundWords : List String := ["if", "else", "while", "do", "for", "switch", "case", "default"]

/-- The tokens that start a statement which does not end at the first semicolon, and those that
start none. -/
def compoundStarts : List Token := .mark "\x7b" :: .mark "\x7d" :: compoundWords.map .word

theorem word_mem_compoundStarts {word : String} :
    .word word ∈ compoundStarts ↔ word ∈ compoundWords := by
  simp [compoundStarts]

/-- The words in front of a condition and a statement. -/
def headWords : List String := ["while", "switch"]

/-- The tokens are a statement up to its semicolon. -/
structure IsLine (ts : List Token) : Prop where
  noEnd : .mark ";" ∉ ts
  begins : ∀ token ∈ ts.head?, token ∉ compoundStarts

/-- A statement is read off the front of the tokens, and the others are left. -/
inductive ReadsOff : List Token → List Token → Prop where
  | block {bs rest : List Token} (closes : closesBraces 0 bs = true) :
      ReadsOff (.mark "\x7b" :: (bs ++ .mark "\x7d" :: rest)) rest
  | line {ts rest : List Token} (isLine : IsLine ts) : ReadsOff (ts ++ .mark ";" :: rest) rest
  | branch {cs ts rest : List Token} (closes : closesParens 0 cs = true)
      (noElse : rest.head? ≠ some (.word "else")) :
      ReadsOff ts rest → ReadsOff (.word "if" :: .mark "(" :: (cs ++ .mark ")" :: ts)) rest
  | choice {cs ts us rest : List Token} (closes : closesParens 0 cs = true) :
      ReadsOff ts (.word "else" :: us) → ReadsOff us rest →
      ReadsOff (.word "if" :: .mark "(" :: (cs ++ .mark ")" :: ts)) rest
  | headed {word : String} {cs ts rest : List Token} (isHead : word ∈ headWords)
      (closes : closesParens 0 cs = true) :
      ReadsOff ts rest → ReadsOff (.word word :: .mark "(" :: (cs ++ .mark ")" :: ts)) rest
  | forLoop {ss cs as ts rest : List Token} (noEnd : .mark ";" ∉ ss)
      (closes : closesParens 0 cs = true) (closes' : closesParens 0 as = true) :
      ReadsOff ts rest →
      ReadsOff
        (.word "for" :: .mark "(" ::
          (ss ++ .mark ";" :: (cs ++ .mark ";" :: (as ++ .mark ")" :: ts)))) rest
  | doLoop {cs ts rest : List Token} (closes : closesParens 0 cs = true) :
      ReadsOff ts (.word "while" :: .mark "(" :: (cs ++ .mark ")" :: .mark ";" :: rest)) →
      ReadsOff (.word "do" :: ts) rest

/-- Behind so many conditions without an alternative, each may go on with an `else`. -/
def Absorbs : Nat → List Token → List Token → Prop
  | 0, ts, rest => rest = ts
  | opened + 1, ts, rest =>
    (ts.head? ≠ some (.word "else") ∧ rest = ts) ∨
      ∃ us mid, ts = .word "else" :: us ∧ ReadsOff us mid ∧ Absorbs opened mid rest

/-- The tokens are a statement with so many conditions at its end that have no alternative. -/
def IsStatement (opened : Nat) (ts : List Token) : Prop :=
  ∀ behind rest, ReadsOff (ts ++ behind) rest ↔ Absorbs opened behind rest

/-- The tokens are one statement, whatever comes behind them but an `else`. -/
def IsSingle (ts : List Token) : Prop :=
  ∀ behind, behind.head? ≠ some (.word "else") → ∀ rest, ReadsOff (ts ++ behind) rest ↔ rest = behind

/-! ### What stands in front of an `else` -/

section Absorbs

variable {opened : Nat} {ts us rest : List Token}

theorem absorbs_other (noElse : ts.head? ≠ some (.word "else")) :
    Absorbs opened ts rest ↔ rest = ts := by
  cases opened with
  | zero => exact Iff.rfl
  | succ opened =>
    constructor
    · rintro (⟨-, rfl⟩ | ⟨us, mid, rfl, -⟩)
      · rfl
      · exact absurd rfl noElse
    · exact fun same => .inl ⟨noElse, same⟩

theorem absorbs_else : Absorbs (opened + 1) (.word "else" :: us) rest ↔
    ∃ mid, ReadsOff us mid ∧ Absorbs opened mid rest := by
  constructor
  · rintro (⟨noElse, -⟩ | ⟨us', mid, same, leaves, absorbs⟩)
    · exact absurd rfl noElse
    · obtain ⟨-, rfl⟩ := List.cons.inj same
      exact ⟨mid, leaves, absorbs⟩
  · rintro ⟨mid, leaves, absorbs⟩
    exact .inr ⟨us, mid, rfl, leaves, absorbs⟩

/-- The inner conditions take what they can before the outer ones do. -/
theorem absorbs_add (inner outer : Nat) :
    Absorbs (inner + outer) ts rest ↔ ∃ mid, Absorbs inner ts mid ∧ Absorbs outer mid rest := by
  induction inner generalizing ts with
  | zero => simp [Absorbs]
  | succ inner ih =>
    rw [Nat.add_right_comm]
    by_cases noElse : ts.head? = some (.word "else")
    · obtain ⟨us, rfl⟩ := List.head?_eq_some_iff.1 noElse
      simp only [absorbs_else, ih]
      constructor
      · rintro ⟨mid, leaves, mid', first, second⟩
        exact ⟨mid', ⟨mid, leaves, first⟩, second⟩
      · rintro ⟨mid', ⟨mid, leaves, first⟩, second⟩
        exact ⟨mid, leaves, mid', first, second⟩
    · simp only [absorbs_other noElse, exists_eq_left]

end Absorbs

/-! ### One law for each way to start -/

section ReadsOff

variable {bs cs ss as ts us rest : List Token} {token : Token} {word : String}

/-- What starts a statement of another kind starts none that ends at its semicolon. -/
theorem IsLine.head_not_mem (h : IsLine ts) (same : ts ++ .mark ";" :: rest = token :: us) :
    token ∉ compoundStarts := by
  cases ts with
  | nil =>
    obtain ⟨rfl, -⟩ := List.cons.inj same
    decide
  | cons first ts =>
    obtain ⟨rfl, -⟩ := List.cons.inj same
    exact h.begins first rfl

theorem readsOff_block (closes : closesBraces 0 bs = true) :
    ReadsOff (.mark "\x7b" :: (bs ++ .mark "\x7d" :: us)) rest ↔ rest = us := by
  refine ⟨fun leaves => ?_, fun same => same ▸ .block closes⟩
  generalize shape : Token.mark "\x7b" :: (bs ++ .mark "\x7d" :: us) = ts at leaves
  cases leaves with
  | block closes' =>
    exact (append_closer_inj (by decide) closes closes' (List.cons.inj shape).2).2.symm
  | line isLine => exact absurd (by decide) (isLine.head_not_mem shape.symm)
  | _ => cases shape

theorem readsOff_line (isLine : IsLine ts) : ReadsOff (ts ++ .mark ";" :: us) rest ↔ rest = us := by
  refine ⟨fun leaves => ?_, fun same => same ▸ .line isLine⟩
  generalize shape : ts ++ .mark ";" :: us = whole at leaves
  cases leaves with
  | line isLine' => exact (append_semicolon_inj isLine.noEnd isLine'.noEnd shape).2.symm
  | headed isHead =>
    have listed : ∀ word ∈ headWords, .word word ∈ compoundStarts := by decide
    exact absurd (listed _ isHead) (isLine.head_not_mem shape)
  | _ => exact absurd (by decide) (isLine.head_not_mem shape)

theorem readsOff_if (closes : closesParens 0 cs = true) :
    ReadsOff (.word "if" :: .mark "(" :: (cs ++ .mark ")" :: ts)) rest ↔
      ∃ mid, ReadsOff ts mid ∧ Absorbs 1 mid rest := by
  constructor
  · intro leaves
    generalize shape : Token.word "if" :: .mark "(" :: (cs ++ .mark ")" :: ts) = whole at leaves
    cases leaves with
    | branch closes' noElse inner =>
      simp only [List.cons.injEq, true_and] at shape
      obtain ⟨-, rfl⟩ := append_closing_inj closes closes' shape
      exact ⟨_, inner, (absorbs_other noElse).2 rfl⟩
    | choice closes' inner others =>
      simp only [List.cons.injEq, true_and] at shape
      obtain ⟨-, rfl⟩ := append_closing_inj closes closes' shape
      exact ⟨_, inner, absorbs_else.2 ⟨_, others, rfl⟩⟩
    | headed isHead =>
      obtain ⟨rfl⟩ := Token.word.inj (List.cons.inj shape).1
      exact absurd isHead (by decide)
    | line isLine => exact absurd (by decide) (isLine.head_not_mem shape.symm)
    | _ => simp at shape
  · rintro ⟨mid, inner, ⟨noElse, rfl⟩ | ⟨us, mid', rfl, others, rfl⟩⟩
    · exact .branch closes noElse inner
    · exact .choice closes inner others

theorem readsOff_headed (isHead : word ∈ headWords) (closes : closesParens 0 cs = true) :
    ReadsOff (.word word :: .mark "(" :: (cs ++ .mark ")" :: ts)) rest ↔ ReadsOff ts rest := by
  have listed : ∀ word ∈ headWords, .word word ∈ compoundStarts := by decide
  refine ⟨fun leaves => ?_, .headed isHead closes⟩
  generalize shape : Token.word word :: .mark "(" :: (cs ++ .mark ")" :: ts) = whole at leaves
  cases leaves with
  | headed _ closes' inner =>
    simp only [List.cons.injEq, true_and] at shape
    obtain ⟨-, rfl⟩ := append_closing_inj closes closes' shape.2
    exact inner
  | line isLine => exact absurd (listed _ isHead) (isLine.head_not_mem shape.symm)
  | block => cases shape
  | branch | choice | forLoop | doLoop =>
    obtain ⟨rfl⟩ := Token.word.inj (List.cons.inj shape).1
    exact absurd isHead (by decide)

theorem readsOff_for (noEnd : .mark ";" ∉ ss) (closes : closesParens 0 cs = true)
    (closes' : closesParens 0 as = true) :
    ReadsOff
        (.word "for" :: .mark "(" ::
          (ss ++ .mark ";" :: (cs ++ .mark ";" :: (as ++ .mark ")" :: ts)))) rest ↔
      ReadsOff ts rest := by
  refine ⟨fun leaves => ?_, .forLoop noEnd closes closes'⟩
  generalize shape : Token.word "for" :: .mark "(" ::
    (ss ++ .mark ";" :: (cs ++ .mark ";" :: (as ++ .mark ")" :: ts))) = whole at leaves
  cases leaves with
  | forLoop noEnd' test step inner =>
    simp only [List.cons.injEq, true_and] at shape
    obtain ⟨-, heads⟩ := append_semicolon_inj noEnd noEnd' shape
    obtain ⟨-, steps⟩ := append_semicolon_inj (not_mem_of_closesParens closes)
      (not_mem_of_closesParens test) heads
    obtain ⟨-, rfl⟩ := append_closing_inj closes' step steps
    exact inner
  | headed isHead =>
    obtain ⟨rfl⟩ := Token.word.inj (List.cons.inj shape).1
    exact absurd isHead (by decide)
  | line isLine => exact absurd (by decide) (isLine.head_not_mem shape.symm)
  | _ => simp at shape

theorem readsOff_do : ReadsOff (.word "do" :: ts) rest ↔
    ∃ cs, closesParens 0 cs = true ∧
      ReadsOff ts (.word "while" :: .mark "(" :: (cs ++ .mark ")" :: .mark ";" :: rest)) := by
  refine ⟨fun leaves => ?_, fun ⟨cs, closes, inner⟩ => .doLoop closes inner⟩
  generalize shape : Token.word "do" :: ts = whole at leaves
  cases leaves with
  | doLoop closes inner =>
    obtain ⟨-, rfl⟩ := List.cons.inj shape
    exact ⟨_, closes, inner⟩
  | headed isHead =>
    obtain ⟨rfl⟩ := Token.word.inj (List.cons.inj shape).1
    exact absurd isHead (by decide)
  | line isLine => exact absurd (by decide) (isLine.head_not_mem shape.symm)
  | _ => simp at shape

end ReadsOff

/-! ### Whole statements -/

namespace IsStatement

variable {opened opened' : Nat} {bs cs ss as ts us : List Token}

/-- Nothing belongs to a statement behind it but an `else`. -/
theorem isSingle (h : IsStatement opened ts) : IsSingle ts := by
  intro behind noElse rest
  rw [h, absorbs_other noElse]

theorem block (closes : closesBraces 0 bs = true) :
    IsStatement 0 (.mark "\x7b" :: (bs ++ [Token.mark "\x7d"])) := by
  intro behind rest
  simpa [Absorbs] using readsOff_block closes

theorem line (h : IsLine ts) : IsStatement 0 (ts ++ [Token.mark ";"]) := by
  intro behind rest
  simpa [Absorbs] using readsOff_line h

/-- A condition without an alternative. -/
theorem branch (closes : closesParens 0 cs = true) (h : IsStatement opened ts) :
    IsStatement (opened + 1) (.word "if" :: .mark "(" :: (cs ++ .mark ")" :: ts)) := by
  intro behind rest
  simp only [List.cons_append, List.append_assoc, readsOff_if closes, h behind, absorbs_add opened 1]

/-- An alternative belongs to the innermost condition in front of it, and the others stay open. -/
theorem choice (closes : closesParens 0 cs = true) (h : IsStatement opened ts)
    (h' : IsStatement opened' us) :
    IsStatement (opened' + opened)
      (.word "if" :: .mark "(" :: (cs ++ .mark ")" :: (ts ++ .word "else" :: us))) := by
  intro behind rest
  simp only [List.cons_append, List.append_assoc, readsOff_if closes, h (.word "else" :: (us ++ behind)),
    ← absorbs_add, absorbs_else, h' behind]

theorem headed {word : String} (isHead : word ∈ headWords) (closes : closesParens 0 cs = true)
    (h : IsStatement opened ts) :
    IsStatement opened (.word word :: .mark "(" :: (cs ++ .mark ")" :: ts)) := by
  intro behind rest
  simp only [List.cons_append, List.append_assoc, readsOff_headed isHead closes, h behind]

theorem forLoop (noEnd : .mark ";" ∉ ss) (closes : closesParens 0 cs = true)
    (closes' : closesParens 0 as = true) (h : IsStatement opened ts) :
    IsStatement opened
      (.word "for" :: .mark "(" ::
        (ss ++ .mark ";" :: (cs ++ .mark ";" :: (as ++ .mark ")" :: ts)))) := by
  intro behind rest
  simp only [List.cons_append, List.append_assoc, readsOff_for noEnd closes closes', h behind]

/-- The end of the loop is behind its body, so no `else` gets there. -/
theorem doLoop (h : IsStatement opened ts) (closes : closesParens 0 cs = true) :
    IsStatement 0
      (.word "do" :: (ts ++ .word "while" :: .mark "(" :: (cs ++ [Token.mark ")", .mark ";"]))) := by
  intro behind rest
  have noElse : (Token.word "while" :: .mark "(" :: (cs ++ .mark ")" :: .mark ";" :: behind)).head? ≠
      some (.word "else") := by simp
  simp only [List.cons_append, List.append_assoc, List.nil_append, readsOff_do, h _ _,
    absorbs_other noElse, List.cons.injEq, true_and]
  constructor
  · rintro ⟨cs', closes', same⟩
    obtain ⟨-, ended⟩ := append_closing_inj closes' closes same
    exact (List.cons.inj ended).2
  · rintro rfl
    exact ⟨cs, closes, rfl⟩

end IsStatement

/-- No tokens are no statement: whatever comes behind them is read instead. -/
theorem not_isSingle_nil : ¬ IsSingle [] := by
  intro single
  have next : ReadsOff ([] ++ [Token.mark ";"]) [] := .line ⟨by simp, by simp⟩
  exact absurd ((single [.mark ";"] (by simp) []).1 next) (by simp)

/-- What starts with a brace ends in front of its semicolon. -/
theorem not_isSingle_opening {ts : List Token} (balanced : IsBalanced ts)
    (opens : ts.head? = some (.mark "\x7b")) : ¬ IsSingle (ts ++ [Token.mark ";"]) := by
  intro single
  obtain ⟨inner, rfl⟩ := List.head?_eq_some_iff.1 opens
  have closes : closesBraces 1 inner = true := by
    have whole := balanced.closesBraces
    simpa [closesBraces, closesBrackets] using whole
  obtain ⟨bs, more, rfl, inside⟩ := exists_closing closes
  have leaves := (single [] (by simp) (more ++ [Token.mark ";"])).1
  simp only [List.cons_append, List.append_assoc, List.append_nil, readsOff_block inside, true_imp_iff]
    at leaves
  simp at leaves

end CppPrinter
