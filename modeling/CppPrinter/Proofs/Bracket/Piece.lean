import CppPrinter.Proofs.Bracket.Text
import CppPrinter.Proofs.Class.Name
import CppPrinter.Proofs.Result

/-!
# Pieces of expressions without loose brackets

Texts are put together in a few shapes: something in front of a name or an operand or behind it, an
operand between brackets, a name behind an operand, operands in a row. There is one law for each shape.
From them a type is fit to stand for a name (`Ty.spelling_naming`), and a literal, a symbol and a resource
are fit to stand for an operand (`Literal.text_closed`, `Symbol.text_closed`, `isClosed_resourceReference`).
-/

namespace CppPrinter

/-! ### Shapes of texts -/

theorem IsNaming.followed {text : String} (h : IsNaming text) (tail : String)
    (fixed : Leads plainly [] tail [] plainly) : IsNaming (text ++ tail) :=
  h.append fixed

theorem IsNaming.headed {text : String} (h : IsNaming text) (lead : String)
    (fixed : Leads anyhow [] lead [] anyhow) : IsNaming (lead ++ text) :=
  fixed.append h

/-- A name or type behind what starts an operand. -/
theorem IsNaming.leadsFrom {text : String} (h : IsNaming text) (lead : String)
    (fixed : Leads freely [] lead [] anyhow) : Leads freely [] (lead ++ text) [] plainly :=
  fixed.append h

theorem IsClosed.followed {text : String} (h : IsClosed text) (tail : String)
    (fixed : Leads softly [] tail [] softly) : IsClosed (text ++ tail) :=
  h.append fixed

theorem IsClosed.headed {text : String} (h : IsClosed text) (lead : String)
    (fixed : Leads freely [] lead [] freely) : IsClosed (lead ++ text) :=
  fixed.append h

/-- A text between an opening bracket and the closing one that it awaits. -/
theorem IsClosed.around {closing text : String} (h : IsClosed text) (opening : String) (closer : Char)
    (opens : Leads freely [] opening [closer] freely)
    (closes : Leads softly [closer] closing [] softly) : IsClosed (opening ++ text ++ closing) :=
  (opens.append (h.frame [closer])).append closes

/-- A name behind an operand. -/
theorem IsClosed.member {receiver op name : String} (h : IsClosed receiver)
    (fixed : Leads softly [] op [] anyhow) (named : IsNaming name) :
    IsClosed (receiver ++ op ++ name) :=
  (h.append fixed).append (named.mono (List.Subset.refl _) (by decide))

/-- Operands with commas between them. -/
theorem IsClosed.intercalate {texts : List String} (each : ∀ text ∈ texts, IsClosed text) :
    IsClosed (", ".intercalate texts) := by
  induction texts with
  | nil => exact (by decide : IsClosed "")
  | cons text rest ih =>
    obtain ⟨here, later⟩ := List.forall_mem_cons.1 each
    cases rest with
    | nil =>
      rw [String.intercalate_singleton]
      exact here
    | cons next rest =>
      have comma : Leads softly [] ", " [] freely := by decide
      rw [String.intercalate_cons_cons]
      exact (here.append comma).append (ih later)

/-- Arguments behind what is called. -/
theorem IsClosed.call {callee arguments : String} (h : IsClosed callee) (closed : IsClosed arguments) :
    IsClosed (callee ++ "(" ++ arguments ++ ")") := by
  have opening : Leads softly [] "(" [')'] freely := by decide
  exact ((h.append opening).append (closed.frame [')'])).append (by decide)

/-! ### Types -/

variable {scope : Scope}

theorem Scope.className_naming (named : scope.EveryName IsIdentifier) (id : ClassId) :
    Gives IsNaming (scope.className id) :=
  (named.className id).mono fun _ h => h.isWord.isNaming

theorem Scope.enumName_naming (named : scope.EveryName IsIdentifier) (id : EnumId) :
    Gives IsNaming (scope.enumName id) :=
  (named.enumName id).mono fun _ h => h.isWord.isNaming

theorem IntKind.isNaming_spelling (k : IntKind) : IsNaming k.spelling := by
  cases k <;> decide

/-- The text of a type is fit to stand for a name. -/
theorem Ty.spelling_naming (named : scope.EveryName IsIdentifier) (promote : Bool) (ty : Ty) :
    Gives IsNaming (ty.spelling scope promote) := by
  induction ty generalizing promote with
  | void | bool | float | double | floatInt => exact .ok (by decide)
  | integer int => exact .after fun k => .ok (k.promotedIf promote).isNaming_spelling
  | string kind => cases kind <;> exact .ok (by decide)
  | arrayPtr ownership element ih =>
    refine (ih false).bind fun text h => .ok ?_
    cases ownership with
    | readOnly | writable => exact h.followed _ (by decide)
    | shared => exact (h.headed _ (by decide)).followed _ (by decide)
  | arrayStorage element length ih =>
    refine (ih false).bind fun text h => .ok ?_
    have comma : Leads plainly [] ", " [] anyhow := by decide
    have front : Leads anyhow [] ("std::array<" ++ text) [] plainly := h.headed _ (by decide)
    exact ((front.append comma).append (isWord_repr length).isNaming).append (by decide)
  | classPtr ownership pointee =>
    refine (scope.className_naming named pointee).bind fun name h => .ok ?_
    cases ownership with
    | readOnly => exact (h.headed _ (by decide)).followed _ (by decide)
    | writable => exact h.followed _ (by decide)
    | shared => exact (h.headed _ (by decide)).followed _ (by decide)
  | classValue stored => exact scope.className_naming named stored
  | enum enumeration => exact scope.enumName_naming named enumeration
  | null => exact .unsupported _

/-- A name with its type in front of it. -/
theorem isNaming_declarator {ty name : String} (hty : IsNaming ty) (named : IsNaming name) :
    IsNaming (declarator ty name) := by
  have touches : Leads anyhow [] (ty ++ name) [] plainly :=
    hty.append (named.mono (by decide) (List.Subset.refl _))
  have space : Leads plainly [] " " [] anyhow := by decide
  unfold declarator
  split
  · exact touches
  · exact (hty.append space).append named

theorem Ty.declaration_naming (named : scope.EveryName IsIdentifier) (ty : Ty) {name : String}
    (h : IsNaming name) : Gives IsNaming (ty.declaration scope name) :=
  (ty.spelling_naming named true).bind fun _ hty => .ok (isNaming_declarator hty h)

/-! ### Literals and symbols -/

/-- The characters of numbers. -/
def isNumeric (c : Char) : Bool := c.isDigit || c == '.' || c == '-' || c == 'e'

theorem isNumeric_of_isDigit {c : Char} (h : c.isDigit = true) : isNumeric c = true := by
  simp [isNumeric, h]

theorem isCalm_of_isNumeric {c : Char} (h : isNumeric c = true) : isCalm c = true := by
  simp only [isNumeric, Bool.or_eq_true, beq_iff_eq] at h
  rcases h with ((digit | rfl) | rfl) | rfl
  · exact isCalm_of_isDigit digit
  · rfl
  · rfl
  · rfl

theorem isNumeric_of_mem_toString {value : Int} {c : Char} (member : c ∈ (toString value).toList) :
    isNumeric c = true := by
  have digits : ∀ n : Nat, ∀ c ∈ (toString n).toList, isNumeric c = true := fun n c inside =>
    isNumeric_of_isDigit (isDigit_of_mem_repr inside)
  by_cases negative : value < 0
  · rw [toString_of_neg negative, String.toList_append] at member
    rcases List.mem_append.1 member with sign | digit
    · rw [List.mem_singleton.1 sign]
      rfl
    · exact digits _ c digit
  · rw [toString_of_nonneg (by omega)] at member
    exact digits _ c member

/-- The text of a decimal consists of digits, a point, the mark of an exponent and its sign. -/
theorem isNumeric_of_mem_text {d : Decimal} {c : Char} (member : c ∈ d.text) : isNumeric c = true := by
  have digits : ∀ c ∈ d.significant, isNumeric c = true := fun c inside =>
    isNumeric_of_isDigit (Decimal.isDigit_of_mem_significant inside)
  have zeros : ∀ k, ∀ c ∈ List.replicate k '0', isNumeric c = true := by
    intro k c inside
    rw [List.eq_of_mem_replicate inside]
    rfl
  have padded : ∀ k, ∀ c ∈ d.significant ++ List.replicate k '0', isNumeric c = true := fun k =>
    List.forall_mem_append.2 ⟨digits, zeros k⟩
  unfold Decimal.text at member
  split at member
  · unfold Decimal.positional at member
    split at member
    · simp only [List.cons_append, List.mem_cons, List.mem_append] at member
      rcases member with rfl | rfl | zero | digit
      · rfl
      · rfl
      · exact zeros _ c zero
      · exact digits c digit
    · rcases List.mem_append.1 member with whole | rest
      · exact padded _ c (List.mem_of_mem_take whole)
      · rcases List.mem_cons.1 rest with rfl | after
        · rfl
        · split at after
          · rw [List.mem_singleton.1 after]
            rfl
          · exact padded _ c (List.mem_of_mem_drop after)
  · unfold Decimal.scientific at member
    rcases List.mem_append.1 member with mantissa | exponent
    · rcases List.mem_append.1 mantissa with first | rest
      · exact digits c (List.mem_of_mem_take first)
      · split at rest
        · cases rest
        · rcases List.mem_cons.1 rest with rfl | later
          · rfl
          · exact digits c (List.mem_of_mem_drop later)
    · rcases List.mem_cons.1 exponent with rfl | power
      · rfl
      · exact isNumeric_of_mem_toString power

theorem isNumeric_of_mem_double {value : Binary64} {c : Char} (member : c ∈ value.text.toList) :
    isNumeric c = true := by
  have magnitude : ∀ c ∈ (if value.isZero then "0.0" else String.ofList value.shortest.text).toList,
      isNumeric c = true := by
    split
    · decide
    · rw [String.toList_ofList]
      exact fun c => isNumeric_of_mem_text
  unfold Binary64.text at member
  dsimp only at member
  split at member
  · rw [String.toList_append] at member
    rcases List.mem_append.1 member with sign | inside
    · rw [List.mem_singleton.1 sign]
      rfl
    · exact magnitude c inside
  · exact magnitude c member

/-- A literal closes what it opens, whatever it holds. -/
theorem Literal.text_closed (value : Literal) : Gives IsClosed value.text := by
  cases value with
  | null => exact .ok (by decide)
  | bool value => cases value <;> exact .ok (by decide)
  | int value =>
    have digits : IsClosed (toString value.toInt) := .of_calm fun c member =>
      isCalm_of_isNumeric (isNumeric_of_mem_toString member)
    refine .ok ?_
    split
    · exact digits
    · exact digits.followed _ (by decide)
  | double value =>
    rw [Literal.text]
    split
    · exact .ok (.of_calm fun c member => isCalm_of_isNumeric (isNumeric_of_mem_double member))
    · exact .unsupported _
  | string value => exact .ok (isClosed_stringLiteral value)

theorem Symbol.text_closed (scopeNamed : scope.EveryName IsIdentifier) {target : Symbol}
    (named : ∀ name ∈ target.name?, IsIdentifier name) : Gives IsClosed (target.text scope) := by
  cases target with
  | this => exact .ok (by decide)
  | localName name => exact .ok (named name rfl).isWord.isNaming.isClosed
  | field owner name =>
    have h := (named name rfl).isWord.camelCase.isNaming
    exact .ok (h.isClosed.headed "this->" (by decide))
  | constant owner name => exact .ok (named name rfl).isWord.camelCase.isNaming.isClosed
  | enumValue owner name =>
    exact (scope.enumName_naming scopeNamed owner).bind fun _ h =>
      .ok (h.isClosed.member (by decide) (named name rfl).isWord.camelCase.isNaming)
  | classRef target => exact (scope.className_naming scopeNamed target).mono fun _ h => h.isClosed
  | enumRef target => exact (scope.enumName_naming scopeNamed target).mono fun _ h => h.isClosed
  | math | utf8 | stringLength => exact .unsupported _

/-- The name of a resource is put together from what is left of its name. -/
theorem isClosed_resourceReference (name : String) : IsClosed (resourceReference name) := by
  have inside : ∀ c ∈ (sanitizeIdentifier name).toList, inWord c = true := fun c =>
    inWord_of_mem_sanitizeIdentifier
  -- A resource with an empty name leaves two colons at the end, which nothing behind it clashes with.
  by_cases empty : (sanitizeIdentifier name).toList = []
  · rw [resourceReference, String.toList_eq_nil_iff.1 empty]
    decide
  · exact IsClosed.member (by decide) (by decide) (IsWord.isNaming ⟨empty, inside⟩)

end CppPrinter
