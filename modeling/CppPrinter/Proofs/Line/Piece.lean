import CppPrinter.Proofs.Mention.Piece

/-!
# Pieces of text on one line

A line break can come into a text from a name alone: fixed texts have none, literals spell it as an
escape, and no lowercase character is one. So names, types and symbols stand on one line if the names do
(`IsOneLine.camelCase`, `Ty.spelling_oneLine`, `Symbol.text_oneLine`).
-/

namespace CppPrinter

/-- The text has no line break. -/
def IsOneLine (text : String) : Prop := '\n' ∉ text.toList

instance (text : String) : Decidable (IsOneLine text) := inferInstanceAs (Decidable (¬ _))

namespace IsOneLine

variable {front text back name : String}

theorem append (h : IsOneLine front) (h' : IsOneLine back) : IsOneLine (front ++ back) := by
  rw [IsOneLine, String.toList_append, List.mem_append, not_or]
  exact ⟨h, h'⟩

/-- A text between two others. -/
theorem around (h : IsOneLine text) (opens : IsOneLine front) (closes : IsOneLine back) :
    IsOneLine (front ++ text ++ back) :=
  (opens.append h).append closes

/-- Arguments behind what is called. -/
theorem call (h : IsOneLine front) (h' : IsOneLine text) :
    IsOneLine (front ++ "(" ++ text ++ ")") :=
  ((h.append (by decide)).append h').append (by decide)

/-- Texts in a row with commas between them. -/
theorem intercalate {texts : List String} (each : ∀ text ∈ texts, IsOneLine text) :
    IsOneLine (", ".intercalate texts) := by
  induction texts with
  | nil => exact (by decide : IsOneLine "")
  | cons text rest ih =>
    obtain ⟨here, later⟩ := List.forall_mem_cons.1 each
    cases rest with
    | nil =>
      rw [String.intercalate_singleton]
      exact here
    | cons next rest =>
      rw [String.intercalate_cons_cons]
      exact (here.append (by decide)).append (ih later)

/-- What refers to resources stands on a line. -/
theorem of_cites {ids : Set String} (h : Cites text ids) : IsOneLine text :=
  fun member => (h.smooth _ member).1 rfl

/-! ### Names -/

/-- No character becomes a line break in lowercase. -/
theorem notMem_lowercase {c : Char} (other : c ≠ '\n') : '\n' ∉ lowercase c := by
  intro member
  obtain rfl | ⟨high, -⟩ := mem_lowercase member
  · exact other rfl
  · exact absurd high (by decide)

theorem camelCase (h : IsOneLine name) : IsOneLine (camelCase name) := by
  unfold CppPrinter.camelCase
  split
  · decide
  · rename_i first rest shape
    rw [IsOneLine, shape, List.mem_cons, not_or] at h
    rw [IsOneLine, String.toList_ofList, List.mem_append, not_or]
    exact ⟨notMem_lowercase (Ne.symm h.1), h.2⟩

theorem notMem_lowercaseAfter (before : List Char) {cs : List Char} (h : '\n' ∉ cs) :
    '\n' ∉ lowercaseAfter before cs := by
  induction cs generalizing before with
  | nil => exact List.not_mem_nil
  | cons c rest ih =>
    rw [List.mem_cons, not_or] at h
    rw [lowercaseAfter, List.mem_append, not_or]
    refine ⟨?_, ih (c :: before) h.2⟩
    split
    · unfold lowercaseSigma
      split <;> decide
    · exact notMem_lowercase (Ne.symm h.1)

theorem mathFunction (h : IsOneLine name) : IsOneLine (mathFunction name) := by
  unfold CppPrinter.mathFunction
  split
  · decide
  · split
    · decide
    · rw [IsOneLine, lowercaseText, String.toList_ofList]
      exact notMem_lowercaseAfter [] h

/-- A name with its type in front of it. -/
theorem declarator {ty : String} (hty : IsOneLine ty) (h : IsOneLine name) :
    IsOneLine (declarator ty name) := by
  unfold CppPrinter.declarator
  split
  · exact hty.append h
  · exact (hty.append (by decide)).append h

end IsOneLine

/-! ### Literals, types and symbols -/

theorem Literal.text_oneLine (value : Literal) : Gives IsOneLine value.text :=
  value.text_cites.mono fun _ => .of_cites

variable {scope : Scope}

/-- A type stands on one line if the names of classes and enumerations do. -/
theorem Ty.spelling_oneLine (names : scope.EveryName IsOneLine) (promote : Bool) (ty : Ty) :
    Gives IsOneLine (ty.spelling scope promote) := by
  induction ty generalizing promote with
  | void | bool | float | double | floatInt => exact .ok (by decide)
  | integer int => exact .after fun k => .ok (.of_cites (k.promotedIf promote).cites_spelling)
  | string kind => cases kind <;> exact .ok (by decide)
  | arrayPtr ownership element ih =>
    refine (ih false).bind fun text h => .ok ?_
    cases ownership with
    | readOnly | writable => exact h.append (by decide)
    | shared => exact h.around (by decide) (by decide)
  | arrayStorage element length ih =>
    refine (ih false).bind fun text h => .ok ?_
    exact (((h.around (by decide) (by decide)).append (.of_cites (cites_repr length)))).append (by decide)
  | classPtr ownership pointee =>
    refine (names.className pointee).bind fun name h => .ok ?_
    cases ownership with
    | readOnly | shared => exact h.around (by decide) (by decide)
    | writable => exact h.append (by decide)
  | classValue stored => exact names.className stored
  | enum enumeration => exact names.enumName enumeration
  | null => exact .unsupported _

theorem Ty.declaration_oneLine (names : scope.EveryName IsOneLine) (ty : Ty) {name : String}
    (h : IsOneLine name) : Gives IsOneLine (ty.declaration scope name) :=
  (ty.spelling_oneLine names true).bind fun _ hty => .ok (hty.declarator h)

theorem Symbol.text_oneLine (names : scope.EveryName IsOneLine) {target : Symbol}
    (named : ∀ name ∈ target.name?, IsOneLine name) : Gives IsOneLine (target.text scope) := by
  cases target with
  | this => exact .ok (by decide)
  | localName name => exact .ok (named name rfl)
  | field owner name => exact .ok (.append (by decide) (named name rfl).camelCase)
  | constant owner name => exact .ok (named name rfl).camelCase
  | enumValue owner name =>
    exact (names.enumName owner).bind fun _ h =>
      .ok ((h.append (by decide)).append (named name rfl).camelCase)
  | classRef target => exact names.className target
  | enumRef target => exact names.enumName target
  | math | utf8 | stringLength => exact .unsupported _

end CppPrinter
