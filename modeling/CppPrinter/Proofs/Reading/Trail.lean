import CppPrinter.Proofs.Reading.Extent
import CppPrinter.Proofs.Reading.Literal
import CppPrinter.Proofs.Reading.TypeText

/-!
# Operands and what stands behind them

The printer puts a form behind an operand without asking what the operand is (`Trail`). The text of
an operand printed for the tightest position is one that a form takes as a whole, or it starts with
a sign of its own (`IsOperand`); either way the form makes it an operand of the same kind again
(`IsOperand.behind`).
-/

namespace CppPrinter

/-- The tokens start with the sign of an operator that has one operand. -/
def StartsSign (ts : List Token) : Prop := ∃ (op : UnaryOp) (rest : List Token),
  ts = .mark op.symbol :: rest

theorem StartsSign.startsPrefix {ts : List Token} (h : StartsSign ts) : StartsPrefix ts := by
  obtain ⟨op, rest, rfl⟩ := h
  exact ⟨op.symbol, rest, rfl, by cases op <;> decide⟩

theorem StartsSign.append {ts : List Token} (h : StartsSign ts) (us : List Token) :
    StartsSign (ts ++ us) := by
  obtain ⟨op, rest, rfl⟩ := h
  exact ⟨op, rest ++ us, rfl⟩

/-- The last token is a number. -/
def EndsNumber (ts : List Token) : Prop := ∃ digits, ts.getLast? = some (.number digits)

theorem endsNumber_append {ts us : List Token} (some : us ≠ []) :
    EndsNumber (ts ++ us) ↔ EndsNumber us := by
  rw [EndsNumber, List.getLast?_append_of_ne_nil ts some]
  rfl

/-- A dot behind a text that does not end in a number starts a new token. -/
theorem Spells.tail_ne_number {text : String} {ts : List Token} (h : Spells text ts)
    (noNumber : ¬ EndsNumber ts) : ∀ digits, tailOf text ≠ .number digits := by
  intro digits tail
  exact noNumber ⟨_, h.getLast?_eq (by rw [tail]; rfl)⟩

/-- The text can stand behind an operand: its tokens go on with no token of the operand, provided
that one does not end in a number where the text starts with a dot, and with its tree the operand
makes another one. -/
structure Trail (dot : Prop) (back : String) (us : List Token) (form : Tree → Tree) : Prop where
  phrase : ∀ {text ts}, Phrase text ts → (dot → ¬ EndsNumber ts) → Phrase (text ++ back) (ts ++ us)
  takes : ∀ {ts t}, Derives .tight ts t → Derives .tight (ts ++ us) (form t)
  some : us ≠ []
  noNumber : ¬ EndsNumber us

namespace Trail

variable {dot dot' : Prop} {back back' : String} {us us' : List Token} {form form' : Tree → Tree}

/-- Where nothing is asked of the operand, something may be known of it. -/
theorem weaken (h : Trail False back us form) : Trail dot back us form where
  phrase phrase _ := h.phrase phrase False.elim
  takes := h.takes
  some := h.some
  noNumber := h.noNumber

/-- One text that can stand behind an operand, and another one behind it. -/
theorem append (h : Trail dot back us form) (h' : Trail dot' back' us' form') :
    Trail dot (back ++ back') (us ++ us') (form' ∘ form) where
  phrase := by
    intro text ts phrase apart
    have behind : dot' → ¬ EndsNumber (ts ++ us) := by
      intro _
      rw [endsNumber_append h.some]
      exact h.noNumber
    have whole := h'.phrase (h.phrase phrase apart) behind
    rwa [String.append_assoc, List.append_assoc] at whole
  takes := by
    intro ts t derives
    have whole := h'.takes (h.takes derives)
    rwa [List.append_assoc] at whole
  some := by
    intro empty
    exact h.some (List.append_eq_nil_iff.1 empty).1
  noNumber := by
    rw [endsNumber_append h'.some]
    exact h'.noNumber

theorem step (op : StepOp) : Trail False op.symbol [.mark op.symbol] (.postfixed op.symbol) where
  phrase phrase _ := phrase.step op
  takes derives := .postfixed (by cases op <;> decide) derives
  some := by simp
  noNumber := by
    rintro ⟨digits, last⟩
    cases last

theorem index {inner : String} {is : List Token} {i : Tree} (h : Spells inner is)
    (derives : Derives (.level .statement) is i) :
    Trail False ("[" ++ (inner ++ "]")) (.mark "[" :: (is ++ [Token.mark "]"])) (.index · i) where
  phrase phrase _ := by
    have whole := phrase.index h
    rwa [String.append_assoc, String.append_assoc] at whole
  takes derives' := .index derives' derives
  some := by simp
  noNumber := by
    rintro ⟨digits, last⟩
    simp [List.getLast?_cons] at last

theorem call {arguments : String} {as : List Token} {a : Tree} (h : Spells arguments as)
    (derives : Derives .items as a) :
    Trail False ("(" ++ (arguments ++ ")")) (.mark "(" :: (as ++ [Token.mark ")"])) (.call · a) where
  phrase phrase _ := by
    have whole := phrase.call h
    rwa [String.append_assoc, String.append_assoc] at whole
  takes derives' := .call derives' derives
  some := by simp
  noNumber := by
    rintro ⟨digits, last⟩
    simp [List.getLast?_cons] at last

theorem member {op name : String} (isMember : op ∈ memberOps) (h : IsIdentifier name) :
    Trail (op = ".") (op ++ name) [.mark op, .word name] (.member · op [name]) where
  phrase phrase apart := by
    have isReach : op ∈ Phrase.reachOps := by
      revert isMember
      simp only [memberOps, Phrase.reachOps, List.mem_cons]
      tauto
    have whole := phrase.member isReach (fun dot => phrase.spells.tail_ne_number (apart dot)) h
    rwa [String.append_assoc] at whole
  takes derives := .member isMember h.free derives
  some := by simp
  noNumber := by
    rintro ⟨digits, last⟩
    cases last

end Trail

theorem IsMemberName.qualify_ne {name : String} (h : IsMemberName name) (t : Tree) :
    t.qualify name ≠ .name templatePath := by
  cases t with
  | name path =>
    intro same
    rw [Tree.qualify, Tree.name.injEq] at same
    have last := congrArg List.getLast? same
    rw [List.getLast?_concat] at last
    exact h.noTemplate (Option.some.inj last)
  | _ =>
    intro same
    cases same

theorem Trail.qualify {name : String} (h : IsMemberName name) :
    Trail False ("::" ++ name) [.mark "::", .word name] (Tree.qualify name) where
  phrase phrase _ := by
    have isReach : "::" ∈ Phrase.reachOps := by decide
    have whole := phrase.member isReach nofun h.identifier
    rwa [String.append_assoc] at whole
  takes derives := .qualify h.identifier.free (h.qualify_ne _) derives
  some := by simp
  noNumber := by
    rintro ⟨digits, last⟩
    cases last

/-- The text of an operand in the tightest position, with its tree. It starts with a sign of its own
(`leads`), or any form may stand behind it; and it ends in a number only if the operand does
(`numeral`), which it is then unless it starts with a sign. -/
structure IsOperandAs (leads numeral : Bool) (text : String) (ts : List Token) (t : Tree) :
    Prop where
  phrase : Phrase text ts
  derives : Derives (.level .primary) ts t
  ends : EndsNumber ts → numeral = true
  kind : leads = true ∧ StartsSign ts ∨
    leads = false ∧ Derives .tight ts t ∧ (numeral = true → EndsNumber ts)

/-- The text of an operand in the tightest position. -/
def IsOperand (leads numeral : Bool) (text : String) : Prop :=
  ∃ ts t, IsOperandAs leads numeral text ts t

theorem IsOperandAs.ofTight {text : String} {ts : List Token} {t : Tree} (phrase : Phrase text ts)
    (derives : Derives .tight ts t) (noNumber : ¬ EndsNumber ts) :
    IsOperandAs false false text ts t :=
  ⟨phrase, .ofTight derives, fun ends => absurd ends noNumber, Or.inr ⟨rfl, derives, nofun⟩⟩

namespace IsOperand

variable {leads numeral : Bool} {text : String} {ts us : List Token} {t : Tree}

theorem ofTight (phrase : Phrase text ts) (derives : Derives .tight ts t)
    (noNumber : ¬ EndsNumber ts) : IsOperand false false text :=
  ⟨ts, t, .ofTight phrase derives noNumber⟩

/-- A form behind an operand makes it an operand of the same kind. -/
theorem behind (h : IsOperand leads numeral text) {dot : Prop} {back : String}
    {form : Tree → Tree} (trail : Trail dot back us form) (apart : dot → numeral = false) :
    IsOperand leads false (text ++ back) := by
  obtain ⟨ts, t, phrase, derives, ends, kind⟩ := h
  have noNumber : dot → ¬ EndsNumber ts := by
    intro isDot ended
    rw [ends ended] at apart
    cases apart isDot
  have last : EndsNumber (ts ++ us) → false = true := by
    rw [endsNumber_append trail.some]
    exact fun ended => absurd ended trail.noNumber
  rcases kind with ⟨isLead, sign⟩ | ⟨noLead, tight, -⟩
  · obtain ⟨u, derives', -⟩ := derives.extend fun _ _ => trail.takes
    exact ⟨ts ++ us, u, trail.phrase phrase noNumber, derives', last,
      Or.inl ⟨isLead, sign.append us⟩⟩
  · have tight' := trail.takes tight
    exact ⟨ts ++ us, form t, trail.phrase phrase noNumber, .ofTight tight', last,
      Or.inr ⟨noLead, tight', nofun⟩⟩

end IsOperand

/-- The text is an operand for a position of a level. -/
def IsPhraseAt (p : Precedence) (text : String) : Prop :=
  ∃ ts t, Phrase text ts ∧ Derives (.level p) ts t

namespace Pending

/-- What starts with an ampersand is a mark that does. -/
theorem scan_ampersand (rest front : List Char) : ∃ m us,
    ((mark ('&' :: front)).scan rest).1 ++ ((mark ('&' :: front)).scan rest).2.tokens =
      .mark (String.ofList ('&' :: m)) :: us := by
  induction rest generalizing front with
  | nil => exact ⟨front, [], rfl⟩
  | cons c rest ih =>
    by_cases longer : '&' :: (front ++ [c]) ∈ marks
    · have grows : (mark ('&' :: front)).next c = ([], mark ('&' :: (front ++ [c]))) := by
        simp [next, grow?, longer]
      rw [scan, grows]
      exact ih (front ++ [c])
    · have ended : (mark ('&' :: front)).next c =
          ([.mark (String.ofList ('&' :: front))], start c) := by
        simp [next, grow?, longer, tokens]
      rw [scan, ended]
      exact ⟨front, _, rfl⟩

end Pending

namespace IsOperand

variable {leads numeral : Bool} {text : String}

/-- A sign in front of an operand, in parentheses where both signs would run together. -/
theorem sign (h : IsOperand leads numeral text) (op : UnaryOp) :
    IsOperand true numeral
      (if signsMerge op.symbol text = true then op.symbol ++ "(" ++ text ++ ")"
        else op.symbol ++ text) := by
  obtain ⟨ts, t, phrase, derives, ends, -⟩ := h
  have isPrefix : op.symbol ∈ prefixOps := by cases op <;> decide
  split
  · refine ⟨_, _, phrase.signParen op, .prefixed isPrefix (derives.parenthesized.ofTightAt _), ?_,
      Or.inl ⟨rfl, op, _, rfl⟩⟩
    rintro ⟨digits, last⟩
    simp [List.getLast?_cons] at last
  · rename_i apart
    refine ⟨_, _, phrase.sign op (by simpa using apart), .prefixed isPrefix derives, ?_,
      Or.inl ⟨rfl, op, ts, rfl⟩⟩
    rintro ⟨digits, last⟩
    cases ts with
    | nil => cases last
    | cons token rest =>
      rw [List.getLast?_cons_cons] at last
      exact ends ⟨digits, last⟩

/-- No operand starts with an ampersand. -/
theorem head?_ne_ampersand (h : IsOperand leads numeral text) : text.toList.head? ≠ some '&' := by
  obtain ⟨ts, t, phrase, -, -, kind⟩ := h
  intro first
  obtain ⟨rest, shape⟩ : ∃ rest, text.toList = '&' :: rest := List.head?_eq_some_iff.1 first
  obtain ⟨m, us, scanned⟩ := Pending.scan_ampersand rest []
  have tokens : ts = .mark (String.ofList ('&' :: m)) :: us := by
    rw [← phrase.spells.2, tailOf, shape, Pending.blank_scan_cons]
    exact scanned
  rcases kind with ⟨-, op, rest', sign⟩ | ⟨-, tight, -⟩
  · rw [tokens, List.cons.injEq, Token.mark.injEq] at sign
    have first' := congrArg (fun s => s.toList.head?) sign.1
    cases op <;> simp [UnaryOp.symbol] at first'
  · obtain ⟨token, rest', shape', opens⟩ := tight.tight_head rfl
    rw [tokens, List.cons.injEq] at shape'
    have opening := opens _ shape'.1.symm
    simp only [openings, List.mem_cons, List.not_mem_nil, or_false] at opening
    rcases opening with same | same <;>
      · have first' := congrArg (fun s => s.toList.head?) same
        simp at first'

/-- The address of an operand is taken of all of it. -/
theorem address_phrase {ts : List Token} {t : Tree} (h : IsOperandAs leads numeral text ts t) :
    Phrase ("&" ++ text) (.mark "&" :: ts) := by
  have noAmpersand := head?_ne_ampersand ⟨ts, t, h⟩
  have joins : Joins "&" text := by
    obtain ⟨c, first, starts⟩ := h.phrase.opens
    intro d first'
    cases Option.mem_unique first first'
    have noOther : c ≠ '&' ∧ c ≠ '=' := by
      refine ⟨?_, ?_⟩
      · rintro rfl
        exact noAmpersand first
      · rintro rfl
        revert starts
        decide
    have tail : tailOf "&" = .mark ['&'] := by decide
    rw [tail]
    simp [Pending.grow?, marks, noOther]
  have ampersand : Spells "&" [.mark "&"] := by decide
  exact .prepend ampersand (by decide) joins h.phrase

theorem address (h : IsOperand leads numeral text) (p : Precedence) :
    IsPhraseAt p ("&" ++ text) := by
  obtain ⟨ts, t, operand⟩ := h
  exact ⟨_, _, address_phrase operand,
    (Derives.prefixed (by decide) operand.derives).ofPrimary p⟩

end IsOperand

theorem IsOperand.isPhraseAt {leads numeral : Bool} {text : String}
    (h : IsOperand leads numeral text) (p : Precedence) : IsPhraseAt p text := by
  obtain ⟨ts, t, phrase, derives, -⟩ := h
  exact ⟨ts, t, phrase, derives.ofPrimary p⟩

/-- The text of an expression in a position of a level. It is an operand of the tightest level, an
operator of a level of its own, or an assignment or a conditional (`loose`); the latter two are in
parentheses where the position asks for more. -/
inductive IsPrinted : (leads numeral loose : Bool) → Precedence → String → Prop where
  | operand {leads numeral : Bool} {p : Precedence} {text : String}
      (h : IsOperand leads numeral text) : IsPrinted leads numeral false p text
  | leveled {p q : Precedence} {text : String} {ts : List Token} {t : Tree}
      (low : Precedence.condOr.level ≤ q.level) (high : q ≠ .primary) (phrase : Phrase text ts)
      (derives : Derives (.level q) ts t) :
      IsPrinted false false false p (q.parenthesize p text)
  | group {p q : Precedence} {text : String} {ts : List Token} {t : Tree}
      (isGroup : q = .assign ∨ q = .select) (phrase : Phrase text ts)
      (derives : Derives (.level q) ts t) (groups : Groups ts t) :
      IsPrinted false false true p (q.parenthesize p text)

namespace IsPrinted

variable {leads numeral loose : Bool} {text : String} {p q : Precedence}

/-- An operator that does not fit is in parentheses, behind which any form may stand. -/
theorem parenthesized {ts : List Token} {t : Tree} (phrase : Phrase text ts)
    (derives : Derives (.level q) ts t) : IsOperand false false ("(" ++ text ++ ")") := by
  refine .ofTight (.paren phrase.spells) derives.parenthesized ?_
  rintro ⟨digits, last⟩
  simp [List.getLast?_cons] at last

theorem isPhraseAt (h : IsPrinted leads numeral loose p text) : IsPhraseAt p text := by
  have fits {q : Precedence} {text : String} {ts : List Token} {t : Tree} (phrase : Phrase text ts)
      (derives : Derives (.level q) ts t) : IsPhraseAt p (q.parenthesize p text) := by
    unfold Precedence.parenthesize
    split
    · exact (parenthesized phrase derives).isPhraseAt p
    · rename_i loose
      rw [Precedence.needsParens_iff, not_lt] at loose
      exact ⟨ts, t, phrase, .loosen loose derives⟩
  cases h with
  | operand h => exact h.isPhraseAt p
  | leveled _ _ phrase derives => exact fits phrase derives
  | group _ phrase derives => exact fits phrase derives

/-- In the tightest position. -/
theorem isOperand (h : IsPrinted leads numeral loose .primary text) :
    IsOperand leads numeral text := by
  have fits {q : Precedence} {text : String} {ts : List Token} {t : Tree} (high : q ≠ .primary)
      (phrase : Phrase text ts) (derives : Derives (.level q) ts t) :
      IsOperand false false (q.parenthesize .primary text) := by
    have parens : q.needsParens .primary = true := by
      revert high
      cases q <;> decide
    rw [Precedence.parenthesize, if_pos parens]
    exact parenthesized phrase derives
  cases h with
  | operand h => exact h
  | leveled _ high phrase derives => exact fits high phrase derives
  | group isGroup phrase derives =>
    exact fits (by rcases isGroup with rfl | rfl <;> decide) phrase derives

/-- On the left of an assignment. -/
theorem isTarget (h : IsPrinted leads numeral loose .assign text) :
    ∃ ts t, Phrase text ts ∧
      (loose = true ∧ Groups ts t ∨ loose = false ∧ Derives (.level .condOr) ts t) := by
  cases h with
  | operand h =>
    obtain ⟨ts, t, phrase, derives⟩ := h.isPhraseAt .condOr
    exact ⟨ts, t, phrase, Or.inr ⟨rfl, derives⟩⟩
  | @leveled _ q text ts t low _ phrase derives =>
    have fits : Precedence.assign.level ≤ q.level := Nat.le_trans (by decide) low
    rw [Precedence.parenthesize_of_le fits]
    exact ⟨ts, t, phrase, Or.inr ⟨rfl, .loosen low derives⟩⟩
  | @group _ q text ts t isGroup phrase _ groups =>
    have fits : Precedence.assign.level ≤ q.level := by rcases isGroup with rfl | rfl <;> decide
    rw [Precedence.parenthesize_of_le fits]
    exact ⟨ts, t, phrase, Or.inl ⟨rfl, groups⟩⟩

end IsPrinted

end CppPrinter
