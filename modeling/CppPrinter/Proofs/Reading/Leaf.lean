import CppPrinter.Expr.Atom
import CppPrinter.Proofs.Result
import CppPrinter.Proofs.Reading.Trail

/-!
# Literals and names as operands

The expressions without operands. Only a negative number starts with a sign, and only a number ends
in one. Symbols have to be named by identifiers (`Symbol.Named`).
-/

namespace CppPrinter

/-- The word of something that is an operand by itself. -/
theorem isOperand_word {word : String} (phrase : Phrase word [.word word])
    (operand : namesOperand word = true) : IsOperand false false word := by
  refine .ofTight phrase (.name operand) ?_
  rintro ⟨digits, last⟩
  cases last

theorem IsIdentifier.isOperand {name : String} (h : IsIdentifier name) :
    IsOperand false false name :=
  isOperand_word (.name h) h.namesOperand

/-- A number with letters behind it. -/
theorem IsNumeral.isOperand {text : String} (h : IsNumeral text) : IsOperand false true text :=
  ⟨_, _, h.phrase, .ofTight (.literal rfl), fun _ => rfl,
    Or.inr ⟨rfl, .literal rfl, fun _ => ⟨text, rfl⟩⟩⟩

theorem IsNumeral.isOperand_negative {text : String} (h : IsNumeral text) :
    IsOperand true true ("-" ++ text) := by
  obtain ⟨first, rest, shape, starts⟩ := h.starts
  have apart : ¬ signsMerge "-" text = true := by
    have noSign : first ≠ '-' := by
      rintro rfl
      cases starts
    simp [signsMerge, shape, noSign]
  have whole := h.isOperand.sign .neg
  rwa [UnaryOp.symbol, if_neg apart] at whole

namespace Literal

/-- The suffixes of literals. -/
def suffixes : List String := ["", "f", "sv"]

/-- A literal with a suffix that goes with any literal. -/
theorem isOperand_suffix {value : Literal} {text sfx : String} (printed : value.text = .ok text)
    (h : sfx ∈ suffixes) : IsOperand value.isNegative value.isNumber (text ++ sfx) := by
  have letters : ∀ sfx ∈ suffixes, (∀ c ∈ sfx.toList, startsWord c = true) ∧
      (∀ c ∈ sfx.toList, inWord c = true) ∧ atExponent sfx.toList = false := by decide +kernel
  have words : ∀ word ∈ ["nullptr", "true", "false"], ∀ sfx ∈ suffixes,
      IsOperand false false (word ++ sfx) := by
    have facts : ∀ word ∈ ["nullptr", "true", "false"], ∀ sfx ∈ suffixes,
        Spells (word ++ sfx) [.word (word ++ sfx)] ∧ Opens (word ++ sfx) ∧
          (tailOf (word ++ sfx)).endsOperand = true ∧ namesOperand (word ++ sfx) = true := by
      decide +kernel
    intro word isWord sfx isSuffix
    obtain ⟨spells, opens, ends, operand⟩ := facts word isWord sfx isSuffix
    exact isOperand_word ⟨spells, opens, ends⟩ operand
  cases value with
  | null =>
    cases printed
    exact words _ (by decide) sfx h
  | bool value =>
    cases printed
    cases value with
    | true => exact words _ (by decide) sfx h
    | false => exact words _ (by decide) sfx h
  | string value =>
    cases printed
    have shape : (stringLiteral value ++ sfx).toList =
        delimited '\x22' value.toList ++ sfx.toList := by simp [stringLiteral]
    obtain ⟨contents, phrase⟩ := Phrase.delimited (by decide) value.toList (letters sfx h).1 shape
    refine .ofTight phrase (.literal rfl) ?_
    rintro ⟨digits, last⟩
    cases last
  | int | double =>
    obtain ⟨magnitude, numeral, rfl⟩ := text_eq_of_isNumber rfl printed
    have whole := numeral.append (letters sfx h).2.1 (letters sfx h).2.2
    split
    · rename_i negative
      rw [negative, String.append_assoc]
      exact whole.isOperand_negative
    · rename_i positive
      rw [Bool.not_eq_true] at positive
      rw [positive]
      exact whole.isOperand

theorem isOperand {value : Literal} {text : String} (printed : value.text = .ok text) :
    IsOperand value.isNegative value.isNumber text := by
  have isSuffix : "" ∈ suffixes := by decide
  have whole := isOperand_suffix printed isSuffix
  rwa [String.append_empty] at whole

end Literal

/-- What a symbol is called is a name of the printed language. -/
def Symbol.Named : Symbol → Prop
  | localName name => IsIdentifier name
  | field _ name | constant _ name | enumValue _ name => IsMemberName (camelCase name)
  | _ => True

theorem Symbol.isOperand {scope : Scope} (scopeNamed : scope.Named) {target : Symbol}
    (named : target.Named) {text : String} (printed : target.text scope = .ok text) :
    IsOperand false false text := by
  have this : IsOperand false false "this" := isOperand_word (by constructor <;> decide) rfl
  cases target with
  | this =>
    cases printed
    exact this
  | localName name =>
    cases printed
    exact IsIdentifier.isOperand named
  | field owner name =>
    cases printed
    have isMember : "->" ∈ memberOps := by decide
    have whole := this.behind (.member isMember named.identifier) nofun
    rwa [← String.append_assoc] at whole
  | constant owner name =>
    cases printed
    exact named.identifier.isOperand
  | enumValue owner name =>
    obtain ⟨enum, found, rfl⟩ : ∃ enum, scope.enumName owner = .ok enum ∧
        enum ++ "::" ++ camelCase name = text := by simpa [Symbol.text] using printed
    have whole := (scopeNamed.enumName found).isOperand.behind (.qualify named) nofun
    rwa [← String.append_assoc] at whole
  | classRef target => exact (scopeNamed.className printed).isOperand
  | enumRef target => exact (scopeNamed.enumName printed).isOperand
  | math | utf8 | stringLength => simp [Symbol.text] at printed

theorem resourceReference_isOperand {name : String} (named : IsMemberName (sanitizeIdentifier name)) :
    IsOperand false false (resourceReference name) := by
  have table : IsIdentifier resourceNamespace := by decide
  have whole := table.isOperand.behind (.qualify named) nofun
  rwa [← String.append_assoc] at whole

end CppPrinter
