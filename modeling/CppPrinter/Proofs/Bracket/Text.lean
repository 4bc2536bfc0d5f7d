import CppPrinter.Proofs.Bracket.Scan
import CppPrinter.Proofs.Reading.Literal
import CppPrinter.Proofs.Text.CamelCase
import CppPrinter.Ty.Spelling
import CppPrinter.Expr.Call

/-!
# Names, numbers and quoted texts without loose brackets

A name consists of characters of words, and putting it into lowercase leaves it so (`IsWord.camelCase`,
`IsWord.mathFunction`); a number has a point and signs besides (`isCalm`); a quoted text escapes whatever
would end it, be it a quote, a backslash or the end of the line (`leads_delimited`).
-/

namespace CppPrinter

/-! ### Words and numbers -/

/-- A character that is no bracket, no quote and no part of a comment: it belongs to a word or a
number. -/
def isCalm (c : Char) : Bool := inWord c || c == '.' || c == '-'

theorem isCalm_of_inWord {c : Char} (h : inWord c = true) : isCalm c = true := by simp [isCalm, h]

theorem isCalm_of_isDigit {c : Char} (h : c.isDigit = true) : isCalm c = true :=
  isCalm_of_inWord (inWord_of_isDigit h)

namespace Scan

/-- A calm character is passed over behind every edge. -/
theorem step_calm {c : Char} (calm : isCalm c = true) (awaited : List Char) (edge : Edge) :
    step awaited (.code edge) c = some (awaited, .code (.behind c)) ∧ Edge.behind c ∈ plainly := by
  -- The reading looks for fourteen characters, and none of them is calm.
  have special : ∀ d ∈ ['\x22', '\x27', '(', ')', '[', ']', '\x7b', '\x7d', '/', '*', '<', ':', '%', '>'],
      isCalm d = false := by decide
  have other : ∀ d ∈ ['\x22', '\x27', '(', ')', '[', ']', '\x7b', '\x7d', '/', '*', '<', ':', '%', '>'],
      c ≠ d := by
    rintro d listed rfl
    rw [special c listed] at calm
    cases calm
  simp only [List.forall_mem_cons] at other
  obtain ⟨double, single, round, round', square, square', curly, curly', slash, star, angle, colon,
    percent, angle', -⟩ := other
  have noClash : edge.clashes c = false := by
    cases edge <;> simp [Edge.clashes, double, single, slash, star, colon, percent, angle']
  have noOpener : closerOf? c = none := by
    unfold closerOf?
    split <;> simp_all
  constructor
  · simp [step, look?, noClash, double, single, noOpener, round', square', curly', Move.result?]
  · unfold Edge.behind
    rw [if_neg slash, if_neg angle, if_neg colon, if_neg percent]
    split <;> decide

theorem run_calm {cs : List Char} (calm : ∀ c ∈ cs, isCalm c = true) (some_text : cs ≠ [])
    (awaited : List Char) (edge : Edge) :
    ∃ edge' ∈ plainly, run awaited (.code edge) cs = some (awaited, .code edge') := by
  induction cs generalizing edge with
  | nil => exact absurd rfl some_text
  | cons c rest ih =>
    obtain ⟨here, later⟩ := List.forall_mem_cons.1 calm
    obtain ⟨read, plain⟩ := step_calm here awaited edge
    cases rest with
    | nil => exact ⟨_, plain, by rw [run, read]; rfl⟩
    | cons d rest =>
      obtain ⟨edge', plain', read'⟩ := ih later (List.cons_ne_nil d rest) (.behind c)
      exact ⟨edge', plain', by rw [run, read]; exact read'⟩

end Scan

/-- A text of calm characters may stand anywhere. -/
theorem IsNaming.of_calm {text : String} (calm : ∀ c ∈ text.toList, isCalm c = true)
    (some_text : text.toList ≠ []) : IsNaming text := fun edge _ =>
  Scan.run_calm calm some_text [] edge

theorem IsClosed.of_calm {text : String} (calm : ∀ c ∈ text.toList, isCalm c = true) :
    IsClosed text := by
  by_cases empty : text.toList = []
  · rw [String.toList_eq_nil_iff.1 empty]
    decide
  · exact (IsNaming.of_calm calm empty).isClosed

/-- A text of characters that belong to words, at least one of them. -/
structure IsWord (text : String) : Prop where
  filled : text.toList ≠ []
  inside : ∀ c ∈ text.toList, inWord c = true

theorem IsIdentifier.isWord {name : String} (h : IsIdentifier name) : IsWord name := by
  obtain ⟨first, rest, shape, starts, inside⟩ := h.spelled
  refine ⟨by simp [shape], ?_⟩
  rw [shape]
  exact List.forall_mem_cons.2 ⟨by simp [inWord, starts], inside⟩

theorem IsWord.isNaming {text : String} (h : IsWord text) : IsNaming text :=
  .of_calm (fun c member => isCalm_of_inWord (h.inside c member)) h.filled

/-- All decimal numbers are words. -/
theorem isWord_repr (n : Nat) : IsWord (toString n) := by
  obtain ⟨first, rest, shape, -⟩ := repr_digits n
  exact ⟨ne_of_eq_of_ne shape (List.cons_ne_nil first rest),
    fun c member => inWord_of_isDigit (isDigit_of_mem_repr member)⟩

/-! ### Lowercase -/

/-- The lowercase characters of a run belong to words: they are letters of ASCII or beyond it. -/
def CaseRun.staysInWord (run : CaseRun) : Bool :=
  let last := run.lower + (run.last - run.first)
  (decide (0x61 ≤ run.lower) && decide (last ≤ 0x7A)) ||
    (decide (0x80 ≤ run.lower) && decide (last < 0xD800)) ||
    (decide (0xE000 ≤ run.lower) && decide (last < 0x110000))

theorem staysInWord_of_mem_caseRuns : ∀ run ∈ caseRuns, run.staysInWord = true := by
  decide +kernel

/-- A character in lowercase is as it was, or it is a character of words from the small letters on. -/
theorem mem_lowercase {c d : Char} (member : d ∈ lowercase c) :
    d = c ∨ 0x61 ≤ d.toNat ∧ inWord d = true := by
  unfold lowercase at member
  split at member
  · have both : ∀ d ∈ ['i', Char.ofNat 0x307], 0x61 ≤ d.toNat ∧ inWord d = true := by decide
    exact .inr (both d member)
  · split at member
    · -- A run of the table: its lowercase characters are letters of ASCII or lie beyond it.
      rename_i lower found
      obtain ⟨run, listed, mapped⟩ := List.exists_of_findSome?_eq_some found
      have stays := staysInWord_of_mem_caseRuns run listed
      unfold CaseRun.map? at mapped
      split at mapped <;> cases mapped
      rename_i inRun
      right
      rw [List.mem_singleton.1 member]
      simp only [CaseRun.staysInWord, Bool.or_eq_true, Bool.and_eq_true, decide_eq_true_eq] at stays
      have letters : ∀ n < 0x7B, 0x61 ≤ n →
          0x61 ≤ (Char.ofNat n).toNat ∧ inWord (Char.ofNat n) = true := by decide
      have beyond : ∀ n, n.isValidChar → 0x80 ≤ n →
          0x61 ≤ (Char.ofNat n).toNat ∧ inWord (Char.ofNat n) = true := by
        intro n valid high
        have code : (Char.ofNat n).toNat = n := by rw [Char.ofNat, dif_pos valid]; rfl
        refine ⟨by omega, by simp [inWord, startsWord, code, high]⟩
      rcases stays with (ascii | low) | high
      · exact letters _ (by omega) (by omega)
      · exact beyond _ (by unfold Nat.isValidChar; omega) (by omega)
      · exact beyond _ (by unfold Nat.isValidChar; omega) (by omega)
    · exact .inl (List.mem_singleton.1 member)

/-- The lowercase of a character of a word consists of characters of words. -/
theorem inWord_of_mem_lowercase {c d : Char} (h : inWord c = true) (member : d ∈ lowercase c) :
    inWord d = true := by
  obtain rfl | ⟨-, word⟩ := mem_lowercase member
  · exact h
  · exact word

/-- A member is printed as a word. -/
theorem IsWord.camelCase {name : String} (h : IsWord name) : IsWord (camelCase name) := by
  obtain ⟨first, rest, shape⟩ := List.exists_cons_of_ne_nil h.filled
  have inside := h.inside
  rw [shape] at inside
  obtain ⟨here, later⟩ := List.forall_mem_cons.1 inside
  unfold CppPrinter.camelCase
  rw [shape]
  constructor
  · rw [String.toList_ofList]
    exact List.append_ne_nil_of_left_ne_nil (lowercase_ne_nil first) rest
  · rw [String.toList_ofList]
    exact List.forall_mem_append.2 ⟨fun d => inWord_of_mem_lowercase here, later⟩

theorem inWord_of_mem_lowercaseAfter {before cs : List Char} (h : ∀ c ∈ cs, inWord c = true) :
    ∀ d ∈ lowercaseAfter before cs, inWord d = true := by
  induction cs generalizing before with
  | nil => exact List.forall_mem_nil _
  | cons c rest ih =>
    obtain ⟨here, later⟩ := List.forall_mem_cons.1 h
    refine List.forall_mem_append.2 ⟨fun d member => ?_, ih later⟩
    split at member
    · rw [List.mem_singleton.1 member]
      unfold lowercaseSigma
      split <;> decide
    · exact inWord_of_mem_lowercase here member

theorem IsWord.lowercaseText {name : String} (h : IsWord name) : IsWord (lowercaseText name) := by
  obtain ⟨first, rest, shape⟩ := List.exists_cons_of_ne_nil h.filled
  constructor
  · rw [CppPrinter.lowercaseText, String.toList_ofList, shape, lowercaseAfter]
    refine List.append_ne_nil_of_left_ne_nil ?_ _
    split
    · exact List.cons_ne_nil _ _
    · exact lowercase_ne_nil first
  · rw [CppPrinter.lowercaseText, String.toList_ofList]
    exact inWord_of_mem_lowercaseAfter h.inside

/-- A mathematical function is called by a word. -/
theorem IsWord.mathFunction {name : String} (h : IsWord name) : IsWord (mathFunction name) := by
  unfold CppPrinter.mathFunction
  split
  · exact ⟨by decide, by decide⟩
  · split
    · exact ⟨by decide, by decide⟩
    · exact h.lowercaseText

/-! ### Literals -/

namespace Scan

variable {delimiter c : Char} (awaited : List Char)

theorem run_backslash (delimits : delimiter ∈ delimiters) (inLine : c ≠ '\n') (rest : List Char) :
    run awaited (.inside delimiter) ('\\' :: c :: rest) = run awaited (.inside delimiter) rest := by
  have noDelimiter : ∀ d ∈ delimiters, '\\' ≠ d := by decide
  simp [run, step, look?, Move.result?, noDelimiter delimiter delimits, inLine]

theorem run_contents (noDelimiter : c ≠ delimiter) (noBackslash : c ≠ '\\') (inLine : c ≠ '\n')
    (rest : List Char) :
    run awaited (.inside delimiter) (c :: rest) = run awaited (.inside delimiter) rest := by
  simp [run, step, look?, Move.result?, noDelimiter, noBackslash, inLine]

/-- The spelling of a character stays between the delimiters. -/
theorem run_escapeChar (delimits : delimiter ∈ delimiters) (c : Char) (rest : List Char) :
    run awaited (.inside delimiter) (escapeChar delimiter c ++ rest) =
      run awaited (.inside delimiter) rest := by
  have octal : ∀ d ∈ ['0', '1', '2', '3', '4', '5', '6', '7'],
      d ≠ '\n' ∧ d ≠ '\\' ∧ ∀ delimiter ∈ delimiters, d ≠ delimiter := by decide
  unfold escapeChar
  split
  · rename_i letter named
    exact run_backslash awaited delimits (Pending.ne_newline_of_namedEscape? named) rest
  · rename_i unnamed
    have inLine : c ≠ '\n' := by
      rintro rfl
      cases unnamed
    split
    · exact run_backslash awaited delimits inLine rest
    · rename_i plain
      obtain ⟨noBackslash, noDelimiter⟩ := not_or.1 plain
      split
      · have digit : ∀ n, octalDigit n ≠ '\n' ∧ octalDigit n ≠ '\\' ∧ octalDigit n ≠ delimiter :=
          fun n => ⟨(octal _ (Pending.octalDigit_mem n)).1, (octal _ (Pending.octalDigit_mem n)).2.1,
            (octal _ (Pending.octalDigit_mem n)).2.2 delimiter delimits⟩
        rw [octalDigits, List.cons_append, List.cons_append, run_backslash awaited delimits (digit _).1,
          List.cons_append, run_contents awaited (digit _).2.2 (digit _).2.1 (digit _).1,
          List.cons_append, run_contents awaited (digit _).2.2 (digit _).2.1 (digit _).1,
          List.nil_append]
      · exact run_contents awaited noDelimiter noBackslash inLine rest

theorem run_escaped (delimits : delimiter ∈ delimiters) (cs rest : List Char) :
    run awaited (.inside delimiter) (cs.flatMap (escapeChar delimiter) ++ rest) =
      run awaited (.inside delimiter) rest := by
  induction cs with
  | nil => rfl
  | cons c cs ih => rw [List.flatMap_cons, List.append_assoc, run_escapeChar awaited delimits, ih]

end Scan

/-- A literal with any characters between its delimiters is closed on its line. -/
theorem leads_delimited {delimiter : Char} (delimits : delimiter ∈ delimiters) (cs : List Char) :
    Leads freely [] (String.ofList (delimited delimiter cs)) [] freely := by
  have opens : ∀ d ∈ delimiters,
      Scan.step [] (.code .loose) d = some ([], .inside d) := by decide
  have closes : Scan.run [] (.inside delimiter) [delimiter] = some ([], .code .loose) := by
    simp [Scan.run, Scan.step, Scan.look?, Scan.Move.result?]
  intro edge free
  obtain rfl := List.mem_singleton.1 free
  refine ⟨.loose, by decide, ?_⟩
  rw [String.toList_ofList, delimited, Scan.run, opens delimiter delimits]
  exact (Scan.run_escaped [] delimits cs [delimiter]).trans closes

theorem isClosed_stringLiteral (s : String) : IsClosed (stringLiteral s) :=
  (leads_delimited (by decide) s.toList).mono (List.Subset.refl _) (by decide)

theorem isClosed_charLiteral (c : Char) : IsClosed (charLiteral c) :=
  (leads_delimited (by decide) [c]).mono (List.Subset.refl _) (by decide)

end CppPrinter
