import CppPrinter.Proofs.Reading.Phrase
import CppPrinter.Text.Identifier

/-!
# Texts that are one token

Names and numbers are read as one token each: all their characters go on with the first.
-/

namespace CppPrinter

namespace Pending

/-- The characters of a word go on with it. -/
theorem scan_word {rest : List Char} (inside : ∀ c ∈ rest, inWord c = true)
    (front : List Char) : (word front).scan rest = ([], word (front ++ rest)) := by
  induction rest generalizing front with
  | nil => simp
  | cons c rest ih =>
    have grows : (word front).next c = ([], word (front ++ [c])) := by
      simp [next, grow?, inside c (List.mem_cons_self ..)]
    rw [scan, grows, ih fun d member => inside d (List.mem_cons_of_mem c member)]
    simp

/-- The characters of a word and dots go on with a number. -/
theorem scan_number {rest : List Char} (inside : ∀ c ∈ rest, inWord c = true ∨ c = '.')
    (front : List Char) : (number front).scan rest = ([], number (front ++ rest)) := by
  induction rest generalizing front with
  | nil => simp
  | cons c rest ih =>
    have grows : (number front).next c = ([], number (front ++ [c])) := by
      simp [next, grow?, inside c (List.mem_cons_self ..)]
    rw [scan, grows, ih fun d member => inside d (List.mem_cons_of_mem c member)]
    simp

end Pending

/-- A text that is read as one token and looks like an operand. -/
theorem Phrase.single {text : String} {p : Pending} {token : Token}
    (scanned : Pending.blank.scan text.toList = ([], p)) (tokens : p.tokens = [token])
    (ends : p.endsOperand = true) (opens : Opens text) : Phrase text [token] := by
  have tail : tailOf text = p := by rw [tailOf, scanned]
  refine ⟨⟨?_, ?_⟩, opens, ?_⟩
  · rw [tail]
    exact Pending.isWhole_of_endsOperand ends
  · rw [tail, scanned, tokens]
    rfl
  · rw [tail]
    exact ends

/-- A text that starts like a word and goes on like one. -/
theorem Pending.scan_startsWord {text : String} {first : Char} {rest : List Char}
    (shape : text.toList = first :: rest) (starts : startsWord first = true)
    (inside : ∀ c ∈ rest, inWord c = true) :
    blank.scan text.toList = ([], word text.toList) := by
  have noSpace : first ≠ ' ' ∧ first ≠ '\t' ∧ first ≠ '\n' := by
    refine ⟨?_, ?_, ?_⟩ <;> · rintro rfl; revert starts; decide
  rw [shape, blank_scan_cons]
  simp [start, noSpace, starts, scan_word inside]

theorem IsIdentifier.scan_eq {name : String} (h : IsIdentifier name) :
    Pending.blank.scan name.toList = ([], .word name.toList) := by
  obtain ⟨first, rest, shape, starts, inside⟩ := h.spelled
  exact Pending.scan_startsWord shape starts inside

theorem IsIdentifier.tailOf_eq {name : String} (h : IsIdentifier name) :
    tailOf name = .word name.toList := by
  rw [tailOf, h.scan_eq]

theorem Phrase.name {name : String} (h : IsIdentifier name) : Phrase name [.word name] := by
  obtain ⟨first, rest, shape, starts, -⟩ := h.spelled
  refine .single h.scan_eq (by simp [Pending.tokens]) rfl ⟨first, ?_, ?_⟩
  · rw [shape]
    rfl
  · simp [startsOperand, starts]

/-- The text is a number up to its end, and no sign behind it would belong to it. -/
structure IsNumeral (text : String) : Prop where
  starts : ∃ first rest, text.toList = first :: rest ∧ first.isDigit = true
  scanned : Pending.blank.scan text.toList = ([], .number text.toList)
  ended : atExponent text.toList = false

/-- The identifier of a resource has no other characters than those of words, but it may be empty. -/
theorem inWord_of_mem_sanitizeIdentifier {name : String} {c : Char}
    (member : c ∈ (sanitizeIdentifier name).toList) : inWord c = true := by
  rw [sanitizeIdentifier, String.toList_ofList] at member
  obtain ⟨d, -, rfl⟩ := List.mem_map.1 member
  split
  · rename_i kept
    rcases Bool.or_eq_true _ _ |>.mp kept with letter | digit
    · simp [inWord, startsWord, letter]
    · exact inWord_of_isDigit digit
  · decide

theorem isDigit_of_mem_repr {n : Nat} {c : Char} (member : c ∈ n.repr.toList) :
    c.isDigit = true := by
  rw [Nat.toList_repr] at member
  exact Nat.isDigit_of_mem_toDigits (by decide) (by decide) member

/-- The decimal digits of a number start with one, and all are digits. -/
theorem repr_digits (n : Nat) :
    ∃ first rest, n.repr.toList = first :: rest ∧ first.isDigit = true ∧
      ∀ c ∈ rest, c.isDigit = true := by
  have digits : ∀ c ∈ n.repr.toList, c.isDigit = true := fun c => isDigit_of_mem_repr
  have nonempty : n.repr.toList ≠ [] := by
    rw [Nat.toList_repr]
    exact Nat.toDigits_ne_nil
  obtain ⟨first, rest, shape⟩ := List.exists_cons_of_ne_nil nonempty
  rw [shape] at digits
  exact ⟨first, rest, shape, digits first (List.mem_cons_self ..),
    fun c member => digits c (List.mem_cons_of_mem first member)⟩

/-- No mark of an exponent is a digit or a point. -/
theorem atExponent_eq_false_of_digits {digits : List Char}
    (h : ∀ c ∈ digits, c.isDigit = true ∨ c = '.') : atExponent digits = false := by
  have facts : ∀ c ∈ ['0', '1', '2', '3', '4', '5', '6', '7', '8', '9', '.'],
      c ≠ 'e' ∧ c ≠ 'E' ∧ c ≠ 'p' ∧ c ≠ 'P' := by decide
  cases last : digits.getLast? with
  | none => simp [atExponent, last]
  | some c =>
    have listed : c ∈ ['0', '1', '2', '3', '4', '5', '6', '7', '8', '9', '.'] := by
      rcases h c (List.mem_of_getLast? last) with digit | rfl
      · exact List.mem_append_left ['.'] (mem_digits_of_isDigit digit)
      · decide
    simp [atExponent, last, facts c listed]

/-- A number ends as the last part of it does. -/
theorem atExponent_append {front back : List Char} (some : back ≠ []) :
    atExponent (front ++ back) = atExponent back := by
  rw [atExponent, List.getLast?_append_of_ne_nil front some]
  rfl

namespace IsNumeral

variable {text sfx : String}

theorem phrase (h : IsNumeral text) : Phrase text [.number text] := by
  obtain ⟨first, rest, shape, starts⟩ := h.starts
  refine .single h.scanned (by simp [Pending.tokens]) (by simp [Pending.endsOperand, h.ended])
    ⟨first, ?_, ?_⟩
  · rw [shape]
    rfl
  · simp [startsOperand, starts]

/-- A text that starts with a digit and goes on like a number. -/
theorem ofChars {first : Char} {rest : List Char} (shape : text.toList = first :: rest)
    (starts : first.isDigit = true) (inside : ∀ c ∈ rest, inWord c = true ∨ c = '.')
    (ended : atExponent text.toList = false) : IsNumeral text := by
  have facts : ∀ c ∈ ['0', '1', '2', '3', '4', '5', '6', '7', '8', '9'],
      c ≠ ' ' ∧ c ≠ '\t' ∧ c ≠ '\n' ∧ startsWord c = false := by decide
  refine ⟨⟨first, rest, shape, starts⟩, ?_, ended⟩
  rw [shape, Pending.blank_scan_cons]
  simp [Pending.start, facts first (mem_digits_of_isDigit starts), starts,
    Pending.scan_number inside]

/-- A text of digits and points that starts with a digit. -/
theorem ofDigits {first : Char} {rest : List Char} (shape : text.toList = first :: rest)
    (starts : first.isDigit = true) (digits : ∀ c ∈ rest, c.isDigit = true ∨ c = '.') :
    IsNumeral text := by
  refine ofChars shape starts (fun c member => (digits c member).imp_left inWord_of_isDigit) ?_
  rw [shape]
  exact atExponent_eq_false_of_digits (List.forall_mem_cons.2 ⟨Or.inl starts, digits⟩)

/-- A number with a suffix of letters and digits. -/
theorem append (h : IsNumeral text) (inside : ∀ c ∈ sfx.toList, inWord c = true)
    (ended : atExponent sfx.toList = false) : IsNumeral (text ++ sfx) := by
  obtain ⟨first, rest, shape, starts⟩ := h.starts
  refine ⟨⟨first, rest ++ sfx.toList, ?_, starts⟩, ?_, ?_⟩
  · rw [String.toList_append, shape, List.cons_append]
  · rw [String.toList_append, Pending.scan_append, h.scanned]
    simp [Pending.scan_number fun c member => Or.inl (inside c member)]
  · rw [String.toList_append]
    by_cases some : sfx.toList = []
    · rw [some, List.append_nil]
      exact h.ended
    · rw [atExponent_append some]
      exact ended

/-- The decimal digits of a number. -/
theorem decimal (n : Nat) : IsNumeral n.repr := by
  obtain ⟨first, rest, shape, starts, digits⟩ := repr_digits n
  exact ofDigits shape starts fun c member => Or.inl (digits c member)

end IsNumeral

namespace Phrase

variable {text : String} {ts : List Token}

/-- The operators that reach a member, each of them a mark. -/
def reachOps : List String := [".", "->", "::"]

/-- A member of whatever does not end in a number that its dot would go on with. -/
theorem member {op name : String} (h : Phrase text ts) (isReach : op ∈ reachOps)
    (noNumber : op = "." → ∀ digits, tailOf text ≠ .number digits) (h' : IsIdentifier name) :
    Phrase (text ++ op ++ name) (ts ++ [Token.mark op, .word name]) := by
  have facts : ∀ op ∈ reachOps, op ≠ "" ∧ Spells op [.mark op] ∧ tailOf op = .mark op.toList ∧
      ∃ c, op.toList.head? = some c ∧ (op = "." ∧ c = '.' ∨ c ∈ ['+', '-', ':', '>']) := by
    simp only [reachOps, List.forall_mem_cons]
    refine ⟨⟨by decide, by decide, by decide, '.', rfl, by decide⟩,
      ⟨by decide, by decide, by decide, '-', rfl, by decide⟩,
      ⟨by decide, by decide, by decide, ':', rfl, by decide⟩, List.forall_mem_nil _⟩
  obtain ⟨nonempty, opSpells, opTail, c, first, joint⟩ := facts op isReach
  have joinsOp : Joins text op := by
    rcases joint with ⟨isDot, rfl⟩ | joint
    · intro d first'
      rw [first] at first'
      cases first'
      exact Pending.grow?_dot h.ends (noNumber isDot)
    · exact h.joins_joint first joint
  obtain ⟨start, rest, shape, starts, -⟩ := h'.spelled
  have tail : tailOf (text ++ op) = .mark op.toList := by
    rw [joinsOp.tailOf_append nonempty, opTail]
  have joinsName : Joins (text ++ op) name := by
    intro d first'
    rw [shape] at first'
    cases first'
    rw [tail]
    exact Pending.grow?_mark_word starts
  have name := Phrase.name h'
  have whole := prepend (h.spells.append opSpells joinsOp) (h.opens.append op) joinsName name
  simpa using whole

/-- What ends in a number is being read as that number at its end. -/
theorem tailOf_eq_number {front : List Token} {digits : String}
    (h : Phrase text (front ++ [Token.number digits])) :
    tailOf text = .number digits.toList ∧ (Pending.blank.scan text.toList).1 = front := by
  obtain ⟨whole, tokens⟩ := h.spells
  have ends := h.ends
  cases tail : tailOf text with
  | number text =>
    rw [tail, Pending.tokens] at tokens
    obtain ⟨same, last⟩ := List.append_inj' tokens rfl
    cases last
    rw [String.toList_ofList]
    exact ⟨rfl, same⟩
  | word | mark | behind =>
    rw [tail, Pending.tokens] at tokens
    obtain ⟨-, last⟩ := List.append_inj' tokens rfl
    cases last
  | blank | inside | escape | stuck =>
    rw [tail] at ends
    cases ends

/-- A dot behind a number belongs to the number, and so does the name behind the dot. -/
theorem number_dot {front : List Token} {digits name : String}
    (h : Phrase text (front ++ [Token.number digits])) (h' : IsIdentifier name) :
    Spells (text ++ "." ++ name) (front ++ [Token.number (digits ++ "." ++ name)]) := by
  obtain ⟨tail, before⟩ := h.tailOf_eq_number
  obtain ⟨first, rest, shape, starts, inside⟩ := h'.spelled
  have letters : ∀ c ∈ '.' :: name.toList, inWord c = true ∨ c = '.' := by
    rw [shape]
    refine List.forall_mem_cons.2 ⟨Or.inr rfl, List.forall_mem_cons.2 ⟨Or.inl ?_, ?_⟩⟩
    · simp [inWord, starts]
    · exact fun c member => Or.inl (inside c member)
  have scanned : Pending.blank.scan (text ++ "." ++ name).toList =
      (front, .number (digits ++ "." ++ name).toList) := by
    have shape' : (text ++ "." ++ name).toList = text.toList ++ '.' :: name.toList := by
      simp [String.toList_append]
    have tail' : (Pending.blank.scan text.toList).2 = .number digits.toList := tail
    rw [shape', Pending.scan_append, before, tail', Pending.scan_number letters]
    simp [String.toList_append]
  refine ⟨?_, ?_⟩
  · rw [tailOf, scanned]
    rfl
  · rw [tailOf, scanned, Pending.tokens, String.ofList_toList]

end Phrase

end CppPrinter
