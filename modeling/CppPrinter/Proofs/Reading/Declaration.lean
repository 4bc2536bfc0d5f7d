import CppPrinter.Proofs.Expr.Unfold
import CppPrinter.Proofs.Reading.Balance
import CppPrinter.Proofs.Reading.Printed
import CppPrinter.Stmt.Declaration

/-!
# Texts of declarations

A declaration is read as tokens without a semicolon, and it starts like a type
(`Env.declare_spells`). Its name touches the text of its type only behind the star of a pointer, which
is a mark; so the two stay apart (`IsTypeText.tailOf_star`).
-/

namespace CppPrinter

namespace Pending

/-- Behind a star that no literal takes, a mark is being read. -/
theorem next_star {p : Pending} (whole : (p.next '*').2.isWhole = true)
    (noLiteral : ∀ delimiter contents sfx, (p.next '*').2 ≠ behind delimiter contents sfx) :
    ∃ m, (p.next '*').2 = mark m := by
  have star : start '*' = mark ['*'] := by decide
  have fresh (ended : p.grow? '*' = none) : ∃ m, (p.next '*').2 = mark m :=
    ⟨['*'], by rw [next, ended, ← star]⟩
  cases p with
  | blank => exact fresh rfl
  | word text => exact fresh (by simp [grow?, show inWord '*' = false by decide])
  | number text => exact fresh (by simp [grow?, show inWord '*' = false by decide])
  | mark text =>
    by_cases comment : text = ['/']
    · subst comment
      cases whole
    · by_cases longer : text ++ ['*'] ∈ marks
      · exact ⟨text ++ ['*'], by simp [next, grow?, comment, longer, Char.isDigit]⟩
      · exact fresh (by simp [grow?, comment, longer, Char.isDigit])
  | behind delimiter contents sfx =>
    exact fresh (by simp [grow?, show startsWord '*' = false by decide, Char.isDigit])
  | inside delimiter contents =>
    by_cases closes : '*' = delimiter
    · subst closes
      exact absurd (by simp [next, grow?]) (noLiteral '*' contents [])
    · simp [next, grow?, closes, isWhole] at whole
  | escape delimiter contents => cases whole
  | stuck => cases whole

end Pending

/-- The star at the end of a type is being read as a mark. -/
theorem IsTypeText.tailOf_star {text : String} {ts : List Token} (h : IsTypeText text ts)
    (last : text.toList.getLast? = some '*') : ∃ m, tailOf text = .mark m := by
  obtain ⟨front, shape⟩ : ∃ front, text.toList = front ++ ['*'] :=
    ⟨text.toList.dropLast, (List.dropLast_append_getLast? _ last).symm⟩
  have tail : tailOf text = ((Pending.blank.scan front).2.next '*').2 := by
    rw [tailOf, shape, Pending.scan_append]
    rfl
  rw [tail]
  refine Pending.next_star (by rw [← tail]; exact h.spells.1) ?_
  intro delimiter contents sfx literal
  have member : Token.literal delimiter (String.ofList contents) (String.ofList sfx) ∈ ts := by
    rw [← h.spells.2, tail, literal]
    simp [Pending.tokens]
  rcases mem_of_closesBrackets h.closes member with same | same | allowed
  · cases same
  · cases same
  · cases allowed

/-- A name behind the text of its type. -/
theorem declarator_spells {ty name : String} {ts : List Token} (h : IsTypeText ty ts)
    (named : IsIdentifier name) : Spells (declarator ty name) (ts ++ [Token.word name]) := by
  have phrase := Phrase.name named
  unfold declarator
  split
  · rename_i star
    obtain ⟨m, tail⟩ := h.tailOf_star star
    obtain ⟨first, rest, shape, starts, -⟩ := named.spelled
    refine h.spells.append phrase.spells ?_
    intro c first'
    rw [shape] at first'
    cases first'
    rw [tail]
    exact Pending.grow?_mark_word starts
  · have space : Spells " " [] := by decide
    have front := h.spells.append_splits space (by decide)
    have free : (tailOf (ty ++ " ")).isFree = true := by
      rw [tailOf_append_splits h.spells (by decide)]
      decide
    simpa using front.free_append phrase.spells free

/-- The first of the tokens is a word that a type can start with. -/
def StartsType (ts : List Token) : Prop :=
  ∃ word rest, ts = .word word :: rest ∧ (word ∉ keywords ∨ word ∈ "const" :: typeWords)

theorem StartsType.append {ts : List Token} (h : StartsType ts) (back : List Token) :
    StartsType (ts ++ back) := by
  obtain ⟨word, rest, rfl, typed⟩ := h
  exact ⟨word, rest ++ back, rfl, typed⟩

theorem DerivesType.startsType {rank : TypeRank} {ts : List Token} {t : TypeTree}
    (h : DerivesType rank ts t) : StartsType ts := by
  induction h with
  | @named path isPath =>
    obtain ⟨some, names⟩ := isPath
    have typed : ∀ word ∈ path, word ∉ keywords ∨ word ∈ "const" :: typeWords := by
      rintro word member
      rcases names with free | ⟨only, isType, rfl⟩
      · exact .inl (free word member)
      · rw [List.mem_singleton.1 member]
        exact .inr (List.mem_cons_of_mem _ isType)
    match path, some with
    | [word], _ => exact ⟨word, [], rfl, typed word (by simp)⟩
    | word :: _ :: _, _ => exact ⟨word, _, rfl, typed word (by simp)⟩
  | array | sharedPtr => exact ⟨"std", _, rfl, .inl (by decide)⟩
  | westConst => exact ⟨"const", _, rfl, .inr (by decide)⟩
  | ofSimple _ ih | ofSpecified _ ih | ofPointing _ ih => exact ih
  | eastConst _ ih | pointer _ ih | constPointer _ ih | unbounded _ ih => exact ih.append _

theorem TakesConst.startsType {ts : List Token} {t : TypeTree} (h : TakesConst ts t) :
    StartsType ts := by
  cases h with
  | simple derives => exact derives.startsType
  | pointer derives => exact derives.startsType.append _

/-- The expression has names of the printed language only, and takes nothing out of a number. -/
structure Env.Fits (env : Env) (id : ExprId) : Prop where
  named : Expr.Every Node.Named (env.exprs.tree id)
  apart : Expr.Every Node.IsApart (env.exprs.tree id)

section Env

variable {env : Env} (scopeNamed : env.scope.Named)

include scopeNamed

theorem Env.Fits.text_isPhraseAt {id : ExprId} (h : env.Fits id) {form : Form}
    (positioned : form.IsPositioned) {text : String} (printed : env.text id form = .ok text) :
    IsPhraseAt .statement text := by
  rw [Env.text_eq] at printed
  exact (Expr.isRead scopeNamed h.named h.apart).form positioned printed

/-- The initial value behind a declaration. -/
theorem Env.initializer_spells {name : String} {ty : Ty} {value : Option ExprId}
    (fits : ∀ id ∈ value, env.Fits id) {text : String}
    (printed : env.initializer name ty value = .ok text) :
    ∃ ts, Spells text ts ∧ .mark ";" ∉ ts ∧ IsBalanced ts ∧ (text = "" ∨ Splits text) := by
  have coerced {id : ExprId} (member : id ∈ value) {inner : String}
      (printed : env.coerced ty id = .ok inner) :
      ∃ ts, Spells inner ts ∧ .mark ";" ∉ ts ∧ IsBalanced ts := by
    have positioned : (Form.coerced ty).IsPositioned := trivial
    obtain ⟨ts, t, phrase, derives⟩ :=
      (fits id member).text_isPhraseAt scopeNamed positioned printed
    exact ⟨ts, phrase.spells, derives.noSemicolon, derives.isBalanced⟩
  unfold Env.initializer at printed
  split at printed
  · cases printed
    exact ⟨[], by decide, by simp, .nil, Or.inl rfl⟩
  · rename_i element length id
    have empty : text = " \x7b\x7d" := by
      rw [bind_eq_ok_iff] at printed
      obtain ⟨n, -, printed⟩ := printed
      split at printed
      · split at printed
        · exact (Except.ok.inj printed).symm
        · cases printed
      · cases printed
    rw [empty]
    exact ⟨[.mark "\x7b", .mark "\x7d"], by decide, by decide, .braces .nil, Or.inr (by decide)⟩
  · rename_i id
    obtain ⟨inner, printedInner, rfl⟩ : ∃ inner, env.coerced (.string .owned) id = .ok inner ∧
        "\x7b" ++ inner ++ "\x7d" = text := by simpa using printed
    obtain ⟨ts, spells, noSemicolon, balanced⟩ := coerced rfl printedInner
    have opened : Spells "\x7b" [.mark "\x7b"] := by decide
    have closed : Spells "\x7d" [.mark "\x7d"] := by decide
    have whole := (opened.free_append spells (by decide)).append_splits closed (by decide)
    refine ⟨_, whole, by simp [noSemicolon], by simpa using balanced.braces,
      Or.inr ⟨'\x7b', ?_, by decide⟩⟩
    rw [String.append_assoc, String.toList_append]
    rfl
  · rename_i id _ _
    obtain ⟨inner, printedInner, rfl⟩ : ∃ inner, env.coerced ty id = .ok inner ∧
        " = " ++ inner = text := by simpa using printed
    obtain ⟨ts, spells, noSemicolon, balanced⟩ := coerced rfl printedInner
    have equals : Spells " = " [.mark "="] := by decide
    refine ⟨_, equals.free_append spells (by decide), by simp [noSemicolon],
      balanced.cons (by decide), Or.inr ⟨' ', ?_, by decide⟩⟩
    rw [String.toList_append]
    rfl

/-- A name behind its type is read as tokens without a semicolon, the first of them a word of a type. -/
theorem Ty.declaration_spells {name : String} (named : IsIdentifier name) {ty : Ty} {text : String}
    (printed : ty.declaration env.scope name = .ok text) :
    ∃ ts, Spells text ts ∧ .mark ";" ∉ ts ∧ IsBalanced ts ∧ StartsType ts := by
  obtain ⟨spelling, printedType, rfl⟩ : ∃ spelling, ty.spelling env.scope true = .ok spelling ∧
      declarator spelling name = text := by simpa [Ty.declaration] using printed
  obtain ⟨ts, t, isType, reads, -⟩ := Ty.isTypeText_meaning scopeNamed.namesTypes printedType
  have inType : .mark ";" ∉ ts := fun member =>
    not_mem_bounds_of_closesType isType.closes _ member (by decide)
  exact ⟨_, declarator_spells isType named, by simp [inType],
    (isBalanced_of_closesType isType.closes).concat (by simp [brackets]), reads.startsType.append _⟩

/-- A declaration is read like its name behind its type. -/
theorem Env.declare_spells {name : String} (named : IsIdentifier name) {ty : Ty}
    {value : Option ExprId} (fits : ∀ id ∈ value, env.Fits id) {text : String}
    (printed : env.declare name ty value = .ok text) :
    ∃ ts, Spells text ts ∧ .mark ";" ∉ ts ∧ IsBalanced ts ∧ StartsType ts := by
  obtain ⟨front, printedFront, start, printedStart, rfl⟩ : ∃ front,
      ty.declaration env.scope name = .ok front ∧ ∃ start,
        env.initializer name ty value = .ok start ∧ front ++ start = text := by
    simpa [Env.declare] using printed
  obtain ⟨ts, declared, noEnd, balanced, first⟩ :=
    Ty.declaration_spells scopeNamed named printedFront
  obtain ⟨us, spells, noEnd', balanced', starts⟩ :=
    Env.initializer_spells scopeNamed fits printedStart
  rcases starts with rfl | splits
  · exact ⟨ts, by simpa using declared, noEnd, balanced, first⟩
  · exact ⟨ts ++ us, declared.append_splits spells splits, by simp [noEnd, noEnd'],
      balanced.append balanced', first.append us⟩

/-- A constant is read as a declaration up to its semicolon. -/
theorem Env.constant_spells {name : String} (named : IsIdentifier name) {ty : Ty} {value : ExprId}
    (fits : env.Fits value) {text : String} (printed : env.constant name ty value = .ok text) :
    ∃ front ts, text = front ++ ";" ∧ Spells front (.word "static" :: ts) ∧ .mark ";" ∉ ts ∧
      IsBalanced ts := by
  obtain ⟨declared, printedFront, inner, printedValue, rfl⟩ : ∃ declared,
      ty.declaration env.scope name = .ok declared ∧ ∃ inner, env.plain value = .ok inner ∧
        "static constexpr " ++ declared ++ " = " ++ inner ++ ";" = text := by
    simpa [Env.constant] using printed
  obtain ⟨ts, spells, noEnd, balanced, -⟩ := Ty.declaration_spells scopeNamed named printedFront
  have positioned : Form.plain.IsPositioned := trivial
  obtain ⟨us, t, phrase, derives⟩ := fits.text_isPhraseAt scopeNamed positioned printedValue
  have lead : Spells "static constexpr " [.word "static", .word "constexpr"] := by decide
  have equals : Spells " = " [.mark "="] := by decide
  have front := (lead.free_append spells (by decide)).append_splits equals (by decide)
  have free : (tailOf ("static constexpr " ++ declared ++ " = ")).isFree = true := by
    rw [tailOf_append_splits (lead.free_append spells (by decide)) (by decide)]
    decide
  refine ⟨_, .word "constexpr" :: (ts ++ .mark "=" :: us), rfl, ?_, ?_, ?_⟩
  · simpa using front.free_append phrase.spells free
  · simp [noEnd, derives.noSemicolon]
  · exact .cons (by decide) (balanced.append (derives.isBalanced.cons (by decide)))

end Env

end CppPrinter
