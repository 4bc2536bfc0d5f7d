import CppPrinter.Proofs.Mention.Name
import CppPrinter.Proofs.Mention.Scan
import CppPrinter.Proofs.Reading.Decoding
import CppPrinter.Proofs.Resource.Table

/-!
# Pieces of lines and what they refer to

Words, numbers, literals, types and symbols refer to no resource (`Cites.ordinary`, `cites_stringLiteral`,
`Literal.text_cites`, `Ty.spelling_cites`, `Symbol.text_cites`), and the reference to a resource refers to
its identifier (`cites_resourceReference`).
-/

namespace CppPrinter

/-! ### Words and numbers -/

namespace Cursor

/-- What goes on with a word is read to the end of the word. -/
theorem read_inWord (place : List Char → Cursor)
    (onward : ∀ text c, inWord c = true → (place text).step c = place (text ++ [c]))
    {cs : List Char} (inside : ∀ c ∈ cs, inWord c = true) (text : List Char) :
    (place text).read cs = ([], place (text ++ cs)) := by
  induction cs generalizing text with
  | nil =>
    rw [List.append_nil]
    rfl
  | cons c rest ih =>
    obtain ⟨here, later⟩ := List.forall_mem_cons.1 inside
    rw [read, onward text c here, ih later, ended, if_pos here, List.append_assoc]
    rfl

theorem read_word {cs : List Char} (inside : ∀ c ∈ cs, inWord c = true) (text : List Char) :
    (word text).read cs = ([], .word (text ++ cs)) :=
  read_inWord word (fun _ _ h => if_pos h) inside text

theorem read_name {cs : List Char} (inside : ∀ c ∈ cs, inWord c = true) (text : List Char) :
    (name text).read cs = ([], .name (text ++ cs)) :=
  read_inWord name (fun _ _ h => if_pos h) inside text

end Cursor

theorem Cursor.read_of_isWord {text : String} (h : IsWord text) :
    gap.read text.toList = ([], .word text.toList) := by
  obtain ⟨first, rest, shape⟩ := List.exists_cons_of_ne_nil h.filled
  have inside := h.inside
  rw [shape] at inside
  obtain ⟨here, later⟩ := List.forall_mem_cons.1 inside
  have onward : gap.step first = .word [first] := if_pos here
  rw [shape, read, onward, read_word later, ended, if_pos here]
  rfl

theorem Cites.word {text : String} (h : IsWord text) (other : text ≠ resourceNamespace) :
    Cites text ∅ := by
  have read := Cursor.read_of_isWord h
  refine ⟨fun c member => smooth_of_inWord (h.inside c member), ?_, ?_⟩
  · rw [read]
    exact bne_iff_ne.2 (mt String.toList_inj.1 other)
  · simp [references, read, Cursor.pending]

/-- Characters of a word, even those of the namespace, with something behind them that ends the word and
does not go on with it. -/
theorem Cites.word_closed {text tail : String} (inside : ∀ c ∈ text.toList, inWord c = true)
    (fixed : IsTail tail) (apart : tail.toList.head?.any (· != ':') = true) :
    Cites (text ++ tail) ∅ := by
  by_cases empty : text.toList = []
  · rw [String.toList_eq_nil_iff.1 empty, String.empty_append]
    exact .of_plain fixed.toIsPlain
  have word : IsWord text := ⟨empty, inside⟩
  obtain ⟨c, first, noColon⟩ := (Option.any_eq_true _ _).1 apart
  obtain ⟨rest, shape⟩ := List.head?_eq_some_iff.1 first
  have stops : inWord c = false := by simpa [IsFresh, shape] using fixed.fresh
  have steps : (Cursor.word text.toList).step c = Cursor.gap.step c := by
    simp [Cursor.step, stops, bne_iff_ne.1 noColon]
  -- Behind the word the tail is read as it is read on its own.
  have read : Cursor.gap.read (text ++ tail).toList = Cursor.gap.read tail.toList := by
    rw [String.toList_append, Cursor.read_append, Cursor.read_of_isWord word, shape, Cursor.read,
      Cursor.read, steps, Cursor.ended, Cursor.ended]
    rfl
  refine ⟨?_, ?_, ?_⟩
  · rw [String.toList_append]
    exact List.forall_mem_append.2
      ⟨fun c member => smooth_of_inWord (inside c member), fixed.smooth⟩
  · rw [read]
    exact fixed.soft
  · have silent : references (text ++ tail).toList = [] := by
      rw [references, read]
      exact fixed.silent
    rw [silent]
    simp

/-- Letters behind a text without references, where they do not make it end like the namespace. -/
theorem Cites.suffixed {text sfx : String} (h : Cites text ∅)
    (inside : ∀ c ∈ sfx.toList, inWord c = true)
    (ends : sfx.toList.getLast? ≠ resourceNamespace.toList.getLast?) : Cites (text ++ sfx) ∅ := by
  by_cases empty : sfx.toList = []
  · rw [String.toList_eq_nil_iff.1 empty, String.append_empty]
    exact h
  obtain ⟨c, rest, shape⟩ := List.exists_cons_of_ne_nil empty
  have silent : references text.toList = [] := List.eq_nil_iff_forall_not_mem.2 fun id => (h.exact id).1
  obtain ⟨before, pending⟩ := List.append_eq_nil_iff.1 silent
  -- The reading is in no reference, so the letters make or lengthen a word.
  obtain ⟨front, read⟩ : ∃ front, (Cursor.gap.read text.toList).2.read sfx.toList =
      ([], .word (front ++ sfx.toList)) := by
    have soft := h.soft
    cases place : (Cursor.gap.read text.toList).2 with
    | gap =>
      rw [shape] at inside ⊢
      obtain ⟨here, later⟩ := List.forall_mem_cons.1 inside
      have onward : Cursor.gap.step c = .word [c] := if_pos here
      exact ⟨[], by rw [Cursor.read, onward, Cursor.read_word later, Cursor.ended, if_pos here]; rfl⟩
    | word front => exact ⟨front, Cursor.read_word inside front⟩
    | name id =>
      rw [place] at pending
      cases pending
    | colon | inside | escape =>
      rw [place] at soft
      cases soft
  refine ⟨?_, ?_, fun id => ?_⟩
  · rw [String.toList_append]
    exact List.forall_mem_append.2 ⟨h.smooth, fun c member => smooth_of_inWord (inside c member)⟩
  · rw [String.toList_append, Cursor.read_append, read]
    refine bne_iff_ne.2 fun same => ends ?_
    rw [← same, List.getLast?_append_of_ne_nil _ empty]
  · rw [references, String.toList_append, Cursor.read_append, read, before]
    simp [Cursor.pending]

theorem Cites.ordinary {name : String} (h : IsOrdinary name) : Cites name ∅ :=
  .word h.identifier.isWord h.other

theorem Cites.member {name : String} (h : IsOrdinary name) : Cites (camelCase name) ∅ :=
  .word h.identifier.isWord.camelCase h.identifier.camelCase_ne

theorem Cites.function {name : String} (h : IsOrdinary name) : Cites (mathFunction name) ∅ :=
  .word h.identifier.isWord.mathFunction (mathFunction_ne name)

theorem cites_repr (n : Nat) : Cites (toString n) ∅ := by
  refine .word (isWord_repr n) fun same => ?_
  have letter : 'T' ∈ (toString n).toList := by
    rw [same]
    decide
  exact absurd (isDigit_of_mem_repr letter) (by decide)

/-- A reference is one to the identifier of the resource. -/
theorem cites_resourceReference (name : String) :
    Cites (resourceReference name) {sanitizeIdentifier name} := by
  have inside : ∀ c ∈ (sanitizeIdentifier name).toList, inWord c = true := fun c =>
    inWord_of_mem_sanitizeIdentifier
  have front : Cursor.gap.read (resourceNamespace ++ "::").toList = ([], .name []) := by decide
  have read : Cursor.gap.read (resourceReference name).toList =
      ([], .name (sanitizeIdentifier name).toList) := by
    rw [resourceReference, String.toList_append, Cursor.read_append, front,
      Cursor.read_name inside [], List.nil_append, List.nil_append]
  refine ⟨?_, ?_, ?_⟩
  · rw [resourceReference, String.toList_append]
    exact List.forall_mem_append.2 ⟨by decide, fun c member => smooth_of_inWord (inside c member)⟩
  · rw [read]
    rfl
  · intro id
    rw [references, read, Set.mem_singleton_iff]
    simp [Cursor.pending]

/-! ### Literals -/

namespace Cursor

variable {delimiter c : Char}

theorem read_backslash (delimits : delimiter ∈ delimiters) (c : Char) (rest : List Char) :
    (inside delimiter).read ('\\' :: c :: rest) = (inside delimiter).read rest := by
  have noDelimiter : ∀ d ∈ delimiters, '\\' ≠ d := by decide
  have nothing : ∀ p : Cursor, p.pending = [] → ∀ d, p.ended d = [] := by
    intro p silent d
    unfold ended
    split
    · rfl
    · exact silent
  simp [read, step, noDelimiter delimiter delimits, nothing (inside delimiter) rfl,
    nothing (escape delimiter) rfl]

theorem read_contents (noDelimiter : c ≠ delimiter) (noBackslash : c ≠ '\\') (rest : List Char) :
    (inside delimiter).read (c :: rest) = (inside delimiter).read rest := by
  simp [read, step, noDelimiter, noBackslash, ended, pending]

/-- The spelling of a character stays between the delimiters. -/
theorem read_escapeChar (delimits : delimiter ∈ delimiters) (c : Char) (rest : List Char) :
    (inside delimiter).read (escapeChar delimiter c ++ rest) = (inside delimiter).read rest := by
  have octal : ∀ d ∈ ['0', '1', '2', '3', '4', '5', '6', '7'],
      d ≠ '\\' ∧ ∀ delimiter ∈ delimiters, d ≠ delimiter := by decide
  have digit : ∀ n rest, (inside delimiter).read (octalDigit n :: rest) =
      (inside delimiter).read rest := fun n rest =>
    read_contents ((octal _ (Pending.octalDigit_mem n)).2 delimiter delimits)
      (octal _ (Pending.octalDigit_mem n)).1 rest
  unfold escapeChar
  split
  · exact read_backslash delimits _ rest
  · split
    · exact read_backslash delimits _ rest
    · rename_i plain
      obtain ⟨noBackslash, noDelimiter⟩ := not_or.1 plain
      split
      · rw [octalDigits, List.cons_append, List.cons_append, read_backslash delimits,
          List.cons_append, digit, List.cons_append, digit, List.nil_append]
      · exact read_contents noDelimiter noBackslash rest

theorem read_escaped (delimits : delimiter ∈ delimiters) (cs rest : List Char) :
    (inside delimiter).read (cs.flatMap (escapeChar delimiter) ++ rest) =
      (inside delimiter).read rest := by
  induction cs with
  | nil => rfl
  | cons c cs ih => rw [List.flatMap_cons, List.append_assoc, read_escapeChar delimits, ih]

end Cursor

/-- Whatever stands in a literal is no reference. -/
theorem cites_delimited {delimiter : Char} (delimits : delimiter ∈ delimiters) (cs : List Char) :
    Cites (String.ofList (delimited delimiter cs)) ∅ := by
  have opens : ∀ d ∈ delimiters, Cursor.gap.step d = .inside d ∧ Cursor.gap.ended d = [] := by decide
  have closes : Cursor.read (.inside delimiter) [delimiter] = ([], .gap) := by
    simp [Cursor.read, Cursor.step, Cursor.ended, Cursor.pending]
  have read : Cursor.gap.read (delimited delimiter cs) = ([], .gap) := by
    rw [delimited, Cursor.read, (opens delimiter delimits).1, (opens delimiter delimits).2,
      Cursor.read_escaped delimits, closes]
    rfl
  have seen : ∀ d ∈ delimiters, isRawControl d = false := by decide
  have controls : isRawControl '\n' = true ∧ isRawControl '\t' = true := by decide
  refine ⟨?_, ?_, ?_⟩
  · rw [String.toList_ofList]
    intro c member
    have noControl := List.any_eq_false.1 (isRawControl_delimited (seen delimiter delimits) cs) c member
    constructor <;> rintro rfl
    · exact noControl controls.1
    · exact noControl controls.2
  · rw [String.toList_ofList, read]
    rfl
  · simp [references, read, Cursor.pending]

theorem cites_stringLiteral (s : String) : Cites (stringLiteral s) ∅ :=
  cites_delimited (by decide) s.toList

theorem cites_charLiteral (c : Char) : Cites (charLiteral c) ∅ := cites_delimited (by decide) [c]

/-! ### Numbers -/

namespace Cursor

/-- Outside of words, or in a word that the namespace does not start with. -/
def IsCalm : Cursor → Prop
  | .gap => True
  | .word text => 'T' ∉ text
  | _ => False

theorem IsCalm.step {p : Cursor} (calm : p.IsCalm) {c : Char} (numeric : isNumeric c = true) :
    (p.step c).IsCalm ∧ p.ended c = [] := by
  have others : ∀ d ∈ ['T', ':', '\x22', '\x27'], isNumeric d = false := by decide
  have differs : ∀ d ∈ ['T', ':', '\x22', '\x27'], c ≠ d := by
    rintro d listed rfl
    rw [others c listed] at numeric
    cases numeric
  simp only [List.forall_mem_cons] at differs
  obtain ⟨capital, colon, double, single, -⟩ := differs
  have starts : (Cursor.start c).IsCalm := by
    unfold start
    split
    · exact fun member => capital (List.mem_singleton.1 member).symm
    · rw [if_neg (by simp [double, single])]
      trivial
  cases p with
  | gap => exact ⟨starts, by simp [ended, pending]⟩
  | word text =>
    have onward : (word text).step c = if inWord c then .word (text ++ [c]) else .start c := by
      simp [Cursor.step, colon]
    refine ⟨?_, by simp [ended, pending]⟩
    rw [onward]
    split
    · exact fun member => (List.mem_append.1 member).elim calm fun last =>
        capital (List.mem_singleton.1 last).symm
    · exact starts
  | colon | name | inside | escape => exact calm.elim

theorem IsCalm.read {p : Cursor} (calm : p.IsCalm) {cs : List Char}
    (numeric : ∀ c ∈ cs, isNumeric c = true) : (p.read cs).2.IsCalm ∧ (p.read cs).1 = [] := by
  induction cs generalizing p with
  | nil => exact ⟨calm, rfl⟩
  | cons c rest ih =>
    obtain ⟨here, later⟩ := List.forall_mem_cons.1 numeric
    obtain ⟨onward, silent⟩ := calm.step here
    rw [Cursor.read, silent]
    exact ih onward later

theorem IsCalm.soft {p : Cursor} (calm : p.IsCalm) : p.isSoft = true ∧ p.pending = [] := by
  cases p with
  | gap => exact ⟨rfl, rfl⟩
  | word text =>
    refine ⟨bne_iff_ne.2 ?_, rfl⟩
    rintro rfl
    exact calm (by decide)
  | colon | name | inside | escape => exact calm.elim

end Cursor

theorem Cites.numeric {text : String} (numeric : ∀ c ∈ text.toList, isNumeric c = true) :
    Cites text ∅ := by
  have noBreak : isNumeric '\n' = false ∧ isNumeric '\t' = false := by decide
  have start : Cursor.gap.IsCalm := trivial
  obtain ⟨calm, silent⟩ := start.read numeric
  refine ⟨fun c member => ?_, calm.soft.1, fun id => ?_⟩
  · constructor <;> rintro rfl
    · exact absurd (numeric _ member) (by simp [noBreak])
    · exact absurd (numeric _ member) (by simp [noBreak])
  · rw [references, silent, calm.soft.2]
    simp

/-- A literal refers to nothing, whatever it holds. -/
theorem Literal.text_cites (value : Literal) : Gives (Cites · ∅) value.text := by
  cases value with
  | null => exact .ok (.of_plain (by decide))
  | bool value => cases value <;> exact .ok (.of_plain (by decide))
  | int value =>
    have digits : Cites (toString value.toInt) ∅ := .numeric fun _ => isNumeric_of_mem_toString
    refine .ok ?_
    split
    · exact digits
    · exact digits.suffixed (by decide) (by decide)
  | double value =>
    rw [Literal.text]
    split
    · exact .ok (.numeric fun _ => isNumeric_of_mem_double)
    · exact .unsupported _
  | string value => exact .ok (cites_stringLiteral value)

/-! ### Types -/

variable {scope : Scope}

theorem IntKind.cites_spelling (k : IntKind) : Cites k.spelling ∅ := by
  cases k <;> exact .of_plain (by decide)

/-- A type refers to nothing. -/
theorem Ty.spelling_cites (names : scope.EveryName IsOrdinary) (promote : Bool) (ty : Ty) :
    Gives (Cites · ∅) (ty.spelling scope promote) := by
  induction ty generalizing promote with
  | void | bool | float | double | floatInt => exact .ok (.of_plain (by decide))
  | integer int => exact .after fun k => .ok (k.promotedIf promote).cites_spelling
  | string kind => cases kind <;> exact .ok (.of_plain (by decide))
  | arrayPtr ownership element ih =>
    refine (ih false).bind fun text h => .ok ?_
    cases ownership with
    | readOnly | writable => exact h.followed (by decide)
    | shared => exact (h.headed (by decide)).followed (by decide)
  | arrayStorage element length ih =>
    refine (ih false).bind fun text h => .ok ?_
    exact ((cites_repr length).behind (by decide) (h.headed (by decide))).followed (by decide)
  | classPtr ownership pointee =>
    refine (names.className pointee).bind fun name h => .ok ?_
    cases ownership with
    | readOnly => exact ((Cites.ordinary h).headed (by decide)).followed (by decide)
    | writable => exact (Cites.ordinary h).followed (by decide)
    | shared => exact ((Cites.ordinary h).headed (by decide)).followed (by decide)
  | classValue stored => exact (names.className stored).mono fun _ => .ordinary
  | enum enumeration => exact (names.enumName enumeration).mono fun _ => .ordinary
  | null => exact .unsupported _

/-- A text that ends in a star can be gone on with. -/
theorem Cites.loose_of_star {text : String} {S : Set String} (h : Cites text S)
    (star : text.toList.getLast? = some '*') : IsLoose text := by
  have soft := h.soft
  obtain ⟨front, shape⟩ := List.getLast?_eq_some_iff.1 star
  have read : (Cursor.gap.read text.toList).2 = (Cursor.gap.read front).2.step '*' := by
    rw [shape, Cursor.read_append]
    rfl
  have noWord : inWord '*' = false := by decide
  have starts : Cursor.start '*' = .gap := by decide
  rw [read] at soft
  rw [IsLoose, read]
  cases place : (Cursor.gap.read front).2 with
  | gap => exact starts
  | word name => simp [Cursor.step, noWord, starts]
  | colon => exact starts
  | name id => simp [Cursor.step, noWord, starts]
  | inside delimiter =>
    rw [place] at soft
    by_cases closes : '*' = delimiter
    · exact if_pos closes
    · simp [Cursor.step, closes, Cursor.isSoft] at soft
  | escape delimiter =>
    rw [place] at soft
    cases soft

/-- A name with its type in front of it. -/
theorem cites_declarator {ty name : String} (hty : Cites ty ∅) (h : Cites name ∅) :
    Cites (declarator ty name) ∅ := by
  unfold declarator
  split
  · rename_i star
    exact (hty.append h (.inl (hty.loose_of_star star))).congr (Set.union_empty ∅)
  · exact h.behind (by decide) hty

theorem Ty.declaration_cites (names : scope.EveryName IsOrdinary) (ty : Ty) {name : String}
    (h : Cites name ∅) : Gives (Cites · ∅) (ty.declaration scope name) :=
  (ty.spelling_cites names true).bind fun _ hty => .ok (cites_declarator hty h)

/-! ### Symbols -/

theorem Symbol.text_cites (names : scope.EveryName IsOrdinary) {target : Symbol}
    (named : ∀ name ∈ target.name?, IsOrdinary name) : Gives (Cites · ∅) (target.text scope) := by
  cases target with
  | this => exact .ok (.of_plain (by decide))
  | localName name => exact .ok (.ordinary (named name rfl))
  | field owner name => exact .ok ((Cites.member (named name rfl)).headed (by decide))
  | constant owner name => exact .ok (.member (named name rfl))
  | enumValue owner name =>
    exact (names.enumName owner).bind fun _ h =>
      .ok ((Cites.member (named name rfl)).behind (by decide) (.ordinary h))
  | classRef target => exact (names.className target).mono fun _ => .ordinary
  | enumRef target => exact (names.enumName target).mono fun _ => .ordinary
  | math | utf8 | stringLength => exact .unsupported _

end CppPrinter
