import CppPrinter.Proofs.Reading.Literal

/-!
# Dots behind string literals

A string literal without a suffix has no members, so a dot must not follow it (`HasBareReceiver`). Whether
one does is seen without all the tokens, by watching for the end of a string literal and the dot behind it
(`Watch.read`). The watch follows the reading of tokens (`Watch.of_scan`), and what it sees is a matter of
the tokens (`Watch.sees_iff`).

What the pieces of a text have in them and end in is said by `Shows`. Pieces in a row show what the one and
the other show, as long as no dot comes in between (`Shows.joined`); a dot shows what the text in front of it
ends in (`Shows.dotted`).
-/

namespace CppPrinter

/-- A string literal without a suffix. -/
def Token.isBareString : Token → Bool
  | .literal delimiter _ sfx => delimiter == '\x22' && sfx == ""
  | _ => false

/-- Somewhere in the tokens, a dot stands directly behind a string literal without a suffix. -/
def HasBareReceiver (ts : List Token) : Prop :=
  ∃ front string back, ts = front ++ string :: Token.mark "." :: back ∧ string.isBareString = true

/-- The same with a token in front of the others, of which is only known whether it is such a string. -/
def hasBareReceiverFrom : Bool → List Token → Bool
  | _, [] => false
  | bare, t :: rest => (bare && t == .mark ".") || hasBareReceiverFrom t.isBareString rest

theorem hasBareReceiverFrom_iff (bare : Bool) (ts : List Token) :
    hasBareReceiverFrom bare ts = true ↔
      (bare = true ∧ ts.head? = some (.mark ".")) ∨ HasBareReceiver ts := by
  induction ts generalizing bare with
  | nil => simp [hasBareReceiverFrom, HasBareReceiver]
  | cons t rest ih =>
    have later : HasBareReceiver (t :: rest) ↔
        (t.isBareString = true ∧ rest.head? = some (.mark ".")) ∨ HasBareReceiver rest := by
      constructor
      · rintro ⟨front, string, back, shape, isString⟩
        cases front with
        | nil =>
          cases shape
          exact .inl ⟨isString, rfl⟩
        | cons first front =>
          cases shape
          exact .inr ⟨front, string, back, rfl, isString⟩
      · rintro (⟨isString, next⟩ | ⟨front, string, back, rfl, isString⟩)
        · obtain ⟨back, rfl⟩ := List.head?_eq_some_iff.1 next
          exact ⟨[], t, back, rfl, isString⟩
        · exact ⟨t :: front, string, back, rfl, isString⟩
    rw [hasBareReceiverFrom, Bool.or_eq_true, ih, later]
    simp

/-- What is being read, as far as a dot behind a string literal is concerned. -/
inductive Watch where
  | code
  /-- Between the delimiters of a literal. -/
  | inside (delimiter : Char)
  /-- Behind a backslash in a literal. -/
  | escape (delimiter : Char)
  /-- Behind a string literal without a suffix. -/
  | closed
  /-- Behind such a literal and a dot. -/
  | dotted
  deriving DecidableEq

namespace Watch

/-- Behind a character that is no dot behind a string literal. -/
def start (c : Char) : Watch := if c = '\x22' ∨ c = '\x27' then inside c else code

/-- Reads one character. -/
def step : Watch → Char → Watch
  | inside delimiter, c =>
    if c = delimiter then (if delimiter = '\x22' then closed else code)
    else if c = '\\' then escape delimiter
    else inside delimiter
  | escape delimiter, _ => inside delimiter
  | closed, c =>
    if c = '.' then dotted else if c = ' ' ∨ c = '\t' ∨ c = '\n' then closed else start c
  | _, c => start c

/-- The dot is a token of its own in front of the character. -/
def sees : Watch → Char → Bool
  | dotted, c => !(c.isDigit || c == '.' || c == '*')
  | _, _ => false

/-- Whether some dot has been seen when a whole text has come, and what is being read then. -/
def read : Watch → List Char → Bool × Watch
  | w, [] => (false, w)
  | w, c :: rest => (w.sees c || ((w.step c).read rest).1, ((w.step c).read rest).2)

theorem read_append (w : Watch) (front back : List Char) :
    w.read (front ++ back) =
      ((w.read front).1 || ((w.read front).2.read back).1, ((w.read front).2.read back).2) := by
  induction front generalizing w with
  | nil => simp [read]
  | cons c rest ih => simp only [List.cons_append, read, ih, Bool.or_assoc]

/-- Where no literal starts, none is read. -/
theorem read_code {cs : List Char} (quiet : ∀ c ∈ cs, c ≠ '\x22' ∧ c ≠ '\x27') :
    code.read cs = (false, code) := by
  induction cs with
  | nil => rfl
  | cons c rest ih =>
    obtain ⟨⟨noDouble, noSingle⟩, later⟩ := List.forall_mem_cons.1 quiet
    have onward : code.step c = code := if_neg (not_or.2 ⟨noDouble, noSingle⟩)
    rw [read, onward, ih later]
    rfl

/-! ### The reading of tokens -/

/-- The place in a reading of tokens, of whose last one is known whether it is a string literal without a
suffix. -/
def of (bare : Bool) : Pending → Watch
  | .inside delimiter _ => inside delimiter
  | .escape delimiter _ => escape delimiter
  | .behind delimiter _ sfx => if delimiter = '\x22' ∧ sfx = [] then closed else code
  | .mark text => if bare = true ∧ text = ['.'] then dotted else code
  | .blank => if bare then closed else code
  | _ => code

/-- Whether the last token is a string literal without a suffix. -/
def lastBare (bare : Bool) (ts : List Token) : Bool := ts.getLast?.elim bare Token.isBareString

theorem lastBare_append (bare : Bool) (xs ys : List Token) :
    lastBare bare (xs ++ ys) = lastBare (lastBare bare xs) ys := by
  simp only [lastBare, List.getLast?_append]
  cases ys.getLast? <;> simp

/-- The characters that no mark has in it. -/
theorem noQuote_of_mem_marks {text : List Char} (isMark : text ∈ marks) {c : Char} (member : c ∈ text) :
    c ≠ '\x22' ∧ c ≠ '\x27' := by
  have listed : ∀ m ∈ marks, ∀ d ∈ m, d ≠ '\x22' ∧ d ≠ '\x27' := by decide
  exact listed text isMark c member

theorem noQuote_of_inWord {c : Char} (h : inWord c = true) : c ≠ '\x22' ∧ c ≠ '\x27' := by
  constructor <;> rintro rfl <;> revert h <;> decide

theorem ne_dot_of_inWord {c : Char} (h : inWord c = true) :
    c ≠ '.' ∧ ¬ (c = ' ' ∨ c = '\t' ∨ c = '\n') := by
  refine ⟨?_, ?_⟩
  · rintro rfl
    revert h
    decide
  · rintro (rfl | rfl | rfl) <;> revert h <;> decide

theorem start_of_noQuote {c : Char} (h : c ≠ '\x22' ∧ c ≠ '\x27') : start c = code :=
  if_neg (not_or.2 h)

/-- How a token starts, or none. -/
inductive Starts (c : Char) : Pending → Prop where
  | space (isSpace : c = ' ' ∨ c = '\t' ∨ c = '\n') : Starts c .blank
  | word (inside : inWord c = true) : Starts c (.word [c])
  | number (inside : inWord c = true) : Starts c (.number [c])
  | quote (isQuote : c = '\x22' ∨ c = '\x27') : Starts c (.inside c [])
  | mark (isMark : [c] ∈ marks) : Starts c (.mark [c])
  | stuck : Starts c .stuck

theorem start_starts (c : Char) : Starts c (Pending.start c) := by
  unfold Pending.start
  split_ifs with space letter digit quote isMark
  · exact .space (by simpa [or_assoc] using space)
  · exact .word (by simp [inWord, letter])
  · exact .number (inWord_of_isDigit digit)
  · exact .quote (by simpa using quote)
  · exact .mark isMark
  · exact .stuck

/-- The watch at the end of a token, or behind the spaces after it. -/
theorem step_ended (bare : Bool) {c : Char} (other : c ≠ '.') (filled : ¬ (c = ' ' ∨ c = '\t' ∨ c = '\n')) :
    (if bare then closed else code).step c = start c := by
  cases bare with
  | true => exact (if_neg other).trans (if_neg filled)
  | false => rfl

/-- A token that starts is watched like any character. -/
theorem of_start (bare : Bool) {c : Char} {p : Pending} (starts : Starts c p) (reads : p ≠ .stuck) :
    of bare p = (if bare then closed else code).step c := by
  cases starts with
  | space isSpace =>
    have apart : c ≠ '.' ∧ start c = code := by rcases isSpace with rfl | rfl | rfl <;> decide
    cases bare with
    | true => exact ((if_neg apart.1).trans (if_pos isSpace)).symm
    | false => exact apart.2.symm
  | word inside | number inside =>
    obtain ⟨other, filled⟩ := ne_dot_of_inWord inside
    rw [step_ended bare other filled, start_of_noQuote (noQuote_of_inWord inside)]
    rfl
  | quote isQuote =>
    have apart : c ≠ '.' ∧ ¬ (c = ' ' ∨ c = '\t' ∨ c = '\n') := by
      rcases isQuote with rfl | rfl <;> decide
    rw [step_ended bare apart.1 apart.2, start, if_pos isQuote]
    rfl
  | mark isMark =>
    have filled : ¬ (c = ' ' ∨ c = '\t' ∨ c = '\n') := by
      rintro (rfl | rfl | rfl) <;> revert isMark <;> decide
    by_cases dot : c = '.'
    · subst dot
      cases bare <;> rfl
    · rw [step_ended bare dot filled, start_of_noQuote (noQuote_of_mem_marks isMark (by simp))]
      exact if_neg fun both => dot (List.singleton_inj.1 both.2)
  | stuck => exact absurd rfl reads

theorem of_mark (bare : Bool) (text : List Char) (c : Char) :
    (of bare (.mark text)).step c = start c ∧
      (of bare (.mark text)).sees c =
        (bare && text == ['.'] && !(c.isDigit || c == '.' || c == '*')) := by
  by_cases dot : bare = true ∧ text = ['.']
  · have place : of bare (.mark text) = dotted := if_pos dot
    rw [place, dot.1, dot.2]
    exact ⟨rfl, rfl⟩
  · have place : of bare (.mark text) = code := if_neg dot
    have other : (bare && text == ['.']) = false := by simpa using dot
    rw [place, other]
    exact ⟨rfl, rfl⟩

/-- Behind a literal, the watch depends on whether it is a string without a suffix. -/
theorem of_behind (bare : Bool) (delimiter : Char) (contents sfx : List Char) :
    of bare (.behind delimiter contents sfx) =
      if (Token.literal delimiter (String.ofList contents) (String.ofList sfx)).isBareString then closed
      else code := by
  simp [of, Token.isBareString]

/-- A character that takes what is being read from one place to another shows nothing, and the watch comes
to the same place. -/
structure KeepsUp (bare : Bool) (p : Pending) (c : Char) (q : Pending) : Prop where
  place : of bare q = (of bare p).step c
  silent : (of bare p).sees c = false
  filled : q ≠ .mark []

section Growth

variable {bare : Bool} {q : Pending} {c : Char}

theorem keepsUp_word {text : List Char} (grows : (Pending.word text).grow? c = some q)
    (reads : q ≠ .stuck) : KeepsUp bare (.word text) c q := by
  simp only [Pending.grow?] at grows
  split_ifs at grows with inside quote
  · cases grows
    exact ⟨(start_of_noQuote (noQuote_of_inWord inside)).symm, rfl, by simp⟩
  · exact absurd (Option.some.inj grows).symm reads

theorem keepsUp_number {text : List Char} (grows : (Pending.number text).grow? c = some q)
    (reads : q ≠ .stuck) : KeepsUp bare (.number text) c q := by
  simp only [Pending.grow?] at grows
  split_ifs at grows with inside quote
  · cases grows
    have fixed : inWord '\x22' = false ∧ inWord '\x27' = false := by decide
    have noQuote : c ≠ '\x22' ∧ c ≠ '\x27' := by
      constructor <;> rintro rfl <;> simp [fixed] at inside
    exact ⟨(start_of_noQuote noQuote).symm, rfl, by simp⟩
  · exact absurd (Option.some.inj grows).symm reads

/-- The watch is behind a dot only as long as no character goes on with it. -/
theorem keepsUp_mark {text : List Char} (nonempty : text ≠ [])
    (grows : (Pending.mark text).grow? c = some q) (reads : q ≠ .stuck) :
    KeepsUp bare (.mark text) c q := by
  obtain ⟨onward, shown⟩ := of_mark bare text c
  simp only [Pending.grow?] at grows
  split_ifs at grows with digit comment isMark
  · cases grows
    simp only [Bool.and_eq_true, beq_iff_eq] at digit
    have plain : start c = code := start_of_noQuote (noQuote_of_inWord (inWord_of_isDigit digit.2))
    exact ⟨plain.symm.trans onward.symm, by simp [shown, digit.2], by simp⟩
  · exact absurd (Option.some.inj grows).symm reads
  · cases grows
    have longer : ¬ (bare = true ∧ text ++ [c] = ['.']) := by
      rintro ⟨-, same⟩
      rcases List.append_eq_singleton_iff.1 same with ⟨empty, -⟩ | ⟨-, empty⟩
      · exact nonempty empty
      · cases empty
    have plain : start c = code := start_of_noQuote (noQuote_of_mem_marks isMark (by simp))
    refine ⟨(if_neg longer).trans (plain.symm.trans onward.symm), shown.trans ?_, by simp⟩
    have dots : ∀ m ∈ marks, m.head? = some '.' → m.length = 2 →
        m = ['.', '.'] ∨ m = ['.', '*'] := by decide
    by_cases dot : text = ['.']
    · subst dot
      have isDot : c = '.' ∨ c = '*' := by simpa using dots _ isMark rfl rfl
      rcases isDot with rfl | rfl <;> simp
    · simp [dot]

theorem keepsUp_inside {delimiter : Char} {contents : List Char}
    (grows : (Pending.inside delimiter contents).grow? c = some q) (reads : q ≠ .stuck) :
    KeepsUp bare (.inside delimiter contents) c q := by
  simp only [Pending.grow?, beq_iff_eq] at grows
  split_ifs at grows with closes escapes breaks
  · cases grows
    subst closes
    have place : of bare (.behind c contents []) = if c = '\x22' then closed else code := by simp [of]
    have onward : (of bare (.inside c contents)).step c = if c = '\x22' then closed else code :=
      if_pos rfl
    exact ⟨place.trans onward.symm, rfl, by simp⟩
  · cases grows
    exact ⟨((if_neg closes).trans (if_pos escapes)).symm, rfl, by simp⟩
  · exact absurd (Option.some.inj grows).symm reads
  · cases grows
    exact ⟨((if_neg closes).trans (if_neg escapes)).symm, rfl, by simp⟩

theorem keepsUp_escape {delimiter : Char} {contents : List Char}
    (grows : (Pending.escape delimiter contents).grow? c = some q) (reads : q ≠ .stuck) :
    KeepsUp bare (.escape delimiter contents) c q := by
  simp only [Pending.grow?] at grows
  split_ifs at grows with breaks
  · exact absurd (Option.some.inj grows).symm reads
  · cases grows
    exact ⟨rfl, rfl, by simp⟩

/-- With a suffix, a string literal has members. -/
theorem keepsUp_behind {delimiter : Char} {contents sfx : List Char}
    (grows : (Pending.behind delimiter contents sfx).grow? c = some q) :
    KeepsUp bare (.behind delimiter contents sfx) c q := by
  simp only [Pending.grow?] at grows
  split_ifs at grows with letter
  cases grows
  have inside : inWord c = true := by
    simp only [Bool.or_eq_true, Bool.and_eq_true] at letter
    rcases letter with letter | ⟨digit, -⟩
    · simp [inWord, letter]
    · exact inWord_of_isDigit digit
  have suffixed : of bare (.behind delimiter contents (sfx ++ [c])) = code :=
    if_neg fun both => by simp at both
  obtain ⟨other, filled⟩ := ne_dot_of_inWord inside
  refine ⟨?_, ?_, by simp⟩
  · rw [suffixed, of_behind, step_ended _ other filled, start_of_noQuote (noQuote_of_inWord inside)]
  · rw [of_behind]
    split <;> rfl

/-- A character that goes on with a token is watched like any other, and shows nothing. -/
theorem keepsUp {p : Pending} (filled : p ≠ .mark []) (grows : p.grow? c = some q)
    (reads : q ≠ .stuck) : KeepsUp bare p c q := by
  cases p with
  | blank => cases grows
  | stuck => exact absurd (Option.some.inj grows).symm reads
  | word text => exact keepsUp_word grows reads
  | number text => exact keepsUp_number grows reads
  | mark text => exact keepsUp_mark (fun empty => filled (congrArg Pending.mark empty)) grows reads
  | inside delimiter contents => exact keepsUp_inside grows reads
  | escape delimiter contents => exact keepsUp_escape grows reads
  | behind delimiter contents sfx => exact keepsUp_behind grows

end Growth

theorem hasBareReceiverFrom_mark (bare : Bool) (text : List Char) :
    hasBareReceiverFrom bare (Pending.mark text).tokens = (bare && text == ['.']) := by
  have isDot : (Token.mark (String.ofList text) == .mark ".") = (text == ['.']) := by
    rw [Bool.eq_iff_iff, beq_iff_eq, beq_iff_eq, Token.mark.injEq, ← String.toList_inj,
      String.toList_ofList]
    rfl
  rw [Pending.tokens, hasBareReceiverFrom, isDot]
  exact Bool.or_false _

/-- In front of a new token, the watch shows what the last token was. -/
theorem of_fresh (bare : Bool) {p : Pending} {c : Char} (fresh : p.grow? c = none)
    (reads : Pending.start c ≠ .stuck) :
    of (lastBare bare p.tokens) (Pending.start c) = (of bare p).step c ∧
      (of bare p).sees c = hasBareReceiverFrom bare p.tokens := by
  rw [of_start _ (start_starts c) reads]
  cases p with
  | blank => cases bare <;> exact ⟨rfl, rfl⟩
  | word text | number text => exact ⟨rfl, by simp [of, sees, hasBareReceiverFrom, Pending.tokens]⟩
  | mark text =>
    obtain ⟨onward, shown⟩ := of_mark bare text c
    refine ⟨onward.symm, shown.trans ?_⟩
    rw [hasBareReceiverFrom_mark]
    by_cases dot : text = ['.']
    · subst dot
      have apart : c.isDigit = false ∧ c ≠ '.' ∧ c ≠ '*' := by
        have longer : ['.', '.'] ∈ marks ∧ ['.', '*'] ∈ marks := by decide
        simp only [Pending.grow?] at fresh
        split_ifs at fresh with digit comment isMark
        refine ⟨by simpa using digit, ?_, ?_⟩ <;> rintro rfl
        · exact isMark longer.1
        · exact isMark longer.2
      simp [apart]
    · simp [dot]
  | behind delimiter contents sfx =>
    refine ⟨?_, ?_⟩
    · rw [of_behind]
      rfl
    · rw [of_behind]
      split <;> simp [sees, hasBareReceiverFrom, Pending.tokens]
  | inside | escape =>
    simp only [Pending.grow?] at fresh
    split_ifs at fresh
  | stuck => cases fresh

theorem hasBareReceiverFrom_append (bare : Bool) (xs ys : List Token) :
    hasBareReceiverFrom bare (xs ++ ys) =
      (hasBareReceiverFrom bare xs || hasBareReceiverFrom (lastBare bare xs) ys) := by
  induction xs generalizing bare with
  | nil => rfl
  | cons t rest ih =>
    have last : lastBare bare (t :: rest) = lastBare t.isBareString rest :=
      lastBare_append bare [t] rest
    rw [List.cons_append, hasBareReceiverFrom, hasBareReceiverFrom, ih, last, Bool.or_assoc]

theorem scan_stuck (cs : List Char) : (Pending.stuck.scan cs).2 = .stuck := by
  induction cs with
  | nil => rfl
  | cons c rest ih => exact ih

theorem start_ne_mark_nil (c : Char) : Pending.start c ≠ .mark [] := by
  intro empty
  have starts := start_starts c
  rw [empty] at starts
  cases starts

/-- The watch follows the reading of one character: where it is, and whether it sees a dot behind a string
literal without a suffix. -/
theorem of_next (bare : Bool) {p : Pending} {c : Char} (filled : p ≠ .mark [])
    (reads : (p.next c).2 ≠ .stuck) :
    of (lastBare bare (p.next c).1) (p.next c).2 = (of bare p).step c ∧
      (of bare p).sees c = hasBareReceiverFrom bare (p.next c).1 ∧ (p.next c).2 ≠ .mark [] := by
  unfold Pending.next at reads ⊢
  cases grown : p.grow? c with
  | some q =>
    rw [grown] at reads
    obtain ⟨there, shown, filled'⟩ : KeepsUp bare p c q := keepsUp filled grown reads
    exact ⟨there, shown, filled'⟩
  | none =>
    rw [grown] at reads
    obtain ⟨there, shown⟩ := of_fresh bare grown reads
    exact ⟨there, shown, start_ne_mark_nil c⟩

/-- The watch follows the reading of a whole text. -/
theorem of_scan (bare : Bool) {p : Pending} {cs : List Char} (filled : p ≠ .mark [])
    (reads : (p.scan cs).2 ≠ .stuck) :
    (of bare p).read cs =
      (hasBareReceiverFrom bare (p.scan cs).1, of (lastBare bare (p.scan cs).1) (p.scan cs).2) := by
  induction cs generalizing bare p with
  | nil => rfl
  | cons c rest ih =>
    have onward : (p.next c).2 ≠ .stuck := by
      intro stuck
      apply reads
      rw [Pending.scan, stuck]
      exact scan_stuck rest
    obtain ⟨there, shown, filled'⟩ := of_next bare filled onward
    rw [Pending.scan] at reads ⊢
    rw [read, ← there, ih (lastBare bare (p.next c).1) filled' reads, shown, hasBareReceiverFrom_append,
      lastBare_append]

/-- In the tokens of a text, a dot stands behind a string literal without a suffix exactly when the watch
sees it, be it at the end of the text. -/
theorem sees_iff {text : String} {ts : List Token} (spells : Spells text ts) :
    HasBareReceiver ts ↔
      (code.read text.toList).1 = true ∨ (code.read text.toList).2 = dotted := by
  obtain ⟨whole, rfl⟩ := spells
  have reads : (Pending.blank.scan text.toList).2 ≠ .stuck := by
    intro stuck
    rw [tailOf, stuck] at whole
    cases whole
  have watched : code.read text.toList = _ := @of_scan false .blank text.toList (by simp) reads
  have last (bare : Bool) (p : Pending) :
      hasBareReceiverFrom bare p.tokens = true ↔ of bare p = dotted := by
    cases p with
    | mark text => simp [hasBareReceiverFrom_mark, of]
    | blank => cases bare <;> decide
    | behind delimiter contents sfx =>
      rw [of_behind]
      split <;> simp [hasBareReceiverFrom, Pending.tokens]
    | _ => simp [hasBareReceiverFrom, Pending.tokens, of]
  have whole' := hasBareReceiverFrom_iff false ((Pending.blank.scan text.toList).1 ++ (tailOf text).tokens)
  simp only [Bool.false_eq_true, false_and, false_or] at whole'
  rw [← whole', hasBareReceiverFrom_append, Bool.or_eq_true, watched, last]
  rfl

end Watch

end CppPrinter
