import CppPrinter.Proofs.Bracket.Piece
import CppPrinter.Proofs.Reading.Leaf
import CppPrinter.Proofs.Receiver.Scan

/-!
# Pieces with dots behind string literals

A piece of text shows whether a dot stands in it behind a string literal without a suffix, and ends in such
a literal or not (`Shows`). Pieces in a row show what each of them shows, as long as something other than a
dot comes first behind a literal (`Shows.joined`, `Shows.followed`); a dot shows what the text in front of it
ends in (`Shows.dotted`). Names, types and numbers have no literals at all, so they show nothing.
-/

namespace CppPrinter

/-- The text ends in a string literal without a suffix. -/
def EndsBare (text : String) : Prop := (Watch.code.read text.toList).2 = .closed

/-- The text has a dot behind a string literal without a suffix if and only if `bare`, and ends in such a
literal only if `ends`. -/
structure Shows (text : String) (bare ends : Prop) : Prop where
  settled : (Watch.code.read text.toList).2 = .code ∨ EndsBare text
  exact : (Watch.code.read text.toList).1 = true ↔ bare
  ends : EndsBare text → ends

/-- A text without string literals that may stand behind anything but one. -/
def IsQuiet (text : String) : Prop := Watch.code.read text.toList = (false, .code)

/-- A text without string literals that may stand behind one, for it does not start with a dot. -/
structure IsParting (text : String) : Prop where
  quiet : IsQuiet text
  behind : Watch.closed.read text.toList = (false, .code)

/-- A text without string literals that may stand behind a dot. -/
structure IsTaken (text : String) : Prop where
  quiet : IsQuiet text
  starts : text.toList.head?.any startsWord = true

instance (text : String) : Decidable (IsQuiet text) := inferInstanceAs (Decidable (_ = _))

instance (text : String) : Decidable (IsParting text) :=
  decidable_of_iff (IsQuiet text ∧ Watch.closed.read text.toList = (false, .code))
    ⟨fun h => ⟨h.1, h.2⟩, fun h => ⟨h.1, h.2⟩⟩

instance (text : String) : Decidable (IsTaken text) :=
  decidable_of_iff (IsQuiet text ∧ text.toList.head?.any startsWord = true)
    ⟨fun h => ⟨h.1, h.2⟩, fun h => ⟨h.1, h.2⟩⟩

theorem IsQuiet.append {front back : String} (h : IsQuiet front) (h' : IsQuiet back) :
    IsQuiet (front ++ back) := by
  rw [IsQuiet, String.toList_append, Watch.read_append, h, h']
  rfl

theorem IsQuiet.of_inWord {text : String} (h : ∀ c ∈ text.toList, inWord c = true) : IsQuiet text :=
  Watch.read_code fun c member => Watch.noQuote_of_inWord (h c member)

theorem IsIdentifier.isTaken {name : String} (h : IsIdentifier name) : IsTaken name := by
  obtain ⟨first, rest, shape, starts, inside⟩ := h.spelled
  exact ⟨.of_inWord h.isWord.inside, by simp [shape, starts]⟩

/-- Behind a dot behind a string literal, any member is seen. -/
theorem IsTaken.read_dotted {name : String} (h : IsTaken name) :
    Watch.dotted.read name.toList = (true, .code) := by
  have quiet : Watch.code.read name.toList = (false, .code) := h.quiet
  have starts := h.starts
  cases shape : name.toList with
  | nil => simp [shape] at starts
  | cons c rest =>
    rw [shape] at quiet starts
    have inside : inWord c = true := by simp [inWord, show startsWord c = true by simpa using starts]
    have seen : Watch.dotted.sees c = true := by
      have noDigit := isDigit_eq_false_of_startsWord (by simpa using starts : startsWord c = true)
      have noStar : c ≠ '*' := by
        rintro rfl
        revert inside
        decide
      simp [Watch.sees, noDigit, (Watch.ne_dot_of_inWord inside).1, noStar]
    rw [Watch.read, seen]
    exact congrArg (fun r => (true, r)) (congrArg Prod.snd quiet)

namespace Shows

variable {front text back lead tail joint name : String} {P Q E E' : Prop}

/-- A text of which more is known that it ends in. -/
theorem ending (h : Shows text P E) (more : EndsBare text → E') : Shows text P E' :=
  ⟨h.settled, h.exact, more⟩

theorem mono (h : Shows text P E) (more : E → E') : Shows text P E' :=
  h.ending fun ends => more (h.ends ends)

/-- A text that shows the same. -/
theorem congr (h : Shows text P E) (same : P ↔ Q) : Shows text Q E :=
  ⟨h.settled, h.exact.trans same, h.ends⟩

theorem of_quiet (h : IsQuiet text) : Shows text False E := by
  have noEnd : ¬ EndsBare text := by simp [EndsBare, show Watch.code.read _ = _ from h]
  exact ⟨.inl (congrArg Prod.snd h), by simp [show Watch.code.read _ = _ from h],
    fun ends => absurd ends noEnd⟩

/-- A text behind another, which is read there as on its own. -/
theorem append (h : Shows front P E) (h' : Shows back Q E')
    (apart : (Watch.code.read front.toList).2.read back.toList = Watch.code.read back.toList) :
    Shows (front ++ back) (P ∨ Q) E' := by
  have read : Watch.code.read (front ++ back).toList =
      ((Watch.code.read front.toList).1 || (Watch.code.read back.toList).1,
        (Watch.code.read back.toList).2) := by
    rw [String.toList_append, Watch.read_append, apart]
  have ends : EndsBare (front ++ back) ↔ EndsBare back := by rw [EndsBare, read, EndsBare]
  exact ⟨by rw [read, ends]; exact h'.settled, by rw [read, Bool.or_eq_true, h.exact, h'.exact],
    fun bare => h'.ends (ends.1 bare)⟩

theorem followed (h : Shows text P E) (parting : IsParting tail) : Shows (text ++ tail) P False := by
  refine (h.append (.of_quiet parting.quiet) ?_).congr (iff_of_eq (or_false P))
  obtain code | closed := h.settled
  · rw [code]
  · rw [show (Watch.code.read text.toList).2 = _ from closed, parting.behind, show _ = _ from parting.quiet]

theorem headed (h : Shows text P E) (quiet : IsQuiet lead) : Shows (lead ++ text) P E := by
  have first : Shows lead False False := .of_quiet quiet
  refine (first.append h ?_).congr (iff_of_eq (false_or P))
  rw [show Watch.code.read lead.toList = _ from quiet]

/-- Two texts with a fixed one between them. -/
theorem joined (h : Shows front P E) (parting : IsParting joint) (h' : Shows back Q E') :
    Shows (front ++ joint ++ back) (P ∨ Q) E' := by
  have first : Shows (front ++ joint) P False := h.followed parting
  refine first.append h' ?_
  rw [first.settled.resolve_right first.ends]

/-- A text behind one that ends in no string literal. -/
theorem taken (h : Shows text P E) (shut : ¬ EndsBare text) (quiet : IsQuiet tail) :
    Shows (text ++ tail) P False := by
  refine (h.append (.of_quiet quiet) ?_).congr (iff_of_eq (or_false P))
  rw [h.settled.resolve_right shut]

/-- A dot shows what the text in front of it ends in. -/
theorem dotted (h : Shows text P E) (member : IsTaken name) :
    Shows (text ++ "." ++ name) (P ∨ EndsBare text) False := by
  by_cases ends : EndsBare text
  · have read : Watch.code.read (text ++ "." ++ name).toList = (true, .code) := by
      have dot : Watch.closed.read ".".toList = (false, .dotted) := by decide
      rw [String.toList_append, String.toList_append, Watch.read_append, Watch.read_append,
        show (Watch.code.read text.toList).2 = _ from ends, dot, member.read_dotted, Bool.or_true]
    have noEnd : ¬ EndsBare (text ++ "." ++ name) := by
      rw [EndsBare, read]
      nofun
    exact ⟨.inl (congrArg Prod.snd read), by rw [read]; simp only [ends, or_true],
      fun bare => absurd bare noEnd⟩
  · have quiet : IsQuiet ("." ++ name) := IsQuiet.append (by decide) member.quiet
    rw [String.append_assoc]
    exact (h.taken ends quiet).congr (by simp [ends])

theorem parenthesize (h : Shows text P E) {level : Precedence} (low : level ≠ .primary)
    (position : Precedence) : Shows (level.parenthesize position text) P (position ≠ .primary) := by
  unfold Precedence.parenthesize
  split
  · exact ((h.headed (by decide)).followed (by decide)).mono False.elim
  · rename_i fits
    refine h.mono fun _ => ?_
    rintro rfl
    cases level <;> first | exact low rfl | exact fits (by decide)

/-- An operator between two texts. -/
theorem between {symbol : String} (h : Shows front P E) (parting : IsParting (" " ++ symbol ++ " "))
    (h' : Shows back Q E') : Shows (between front symbol back) (P ∨ Q) E' := by
  have shape : CppPrinter.between front symbol back = front ++ (" " ++ symbol ++ " ") ++ back := by
    simp only [CppPrinter.between, String.append_assoc]
  rw [shape]
  exact h.joined parting h'

/-- Texts in a row with commas between them. -/
theorem intercalate {α : Type} {bare : α → Prop} {texts : List String} {xs : List α}
    (each : List.Forall₂ (fun text x => Shows text (bare x) True) texts xs) :
    Shows (", ".intercalate texts) (∃ x ∈ xs, bare x) True := by
  induction each with
  | nil => exact (of_quiet (by decide)).congr (by simp)
  | @cons text x texts xs here rest ih =>
    cases texts with
    | nil =>
      cases rest
      exact here.congr (by simp)
    | cons next texts =>
      rw [String.intercalate_cons_cons]
      exact (here.joined (by decide) ih).congr (by simp)

end Shows

/-! ### Literals -/

/-- What a literal is read as. -/
theorem Watch.read_delimited {delimiter : Char} (delimits : delimiter ∈ delimiters) (cs : List Char) :
    Watch.code.read (delimited delimiter cs) =
      (false, if delimiter = '\x22' then .closed else .code) := by
  obtain ⟨contents, scanned⟩ := Pending.scan_delimited delimits cs (List.forall_mem_nil _)
  rw [List.append_nil] at scanned
  have watched := @Watch.of_scan false .blank (delimited delimiter cs) nofun (by rw [scanned]; nofun)
  rw [scanned] at watched
  simpa [Watch.of, hasBareReceiverFrom] using watched

theorem endsBare_stringLiteral (s : String) : EndsBare (stringLiteral s) := by
  rw [EndsBare, stringLiteral, String.toList_ofList, Watch.read_delimited (by decide)]
  rfl

theorem shows_stringLiteral (s : String) : Shows (stringLiteral s) False True := by
  refine ⟨.inr (endsBare_stringLiteral s), ?_, fun _ => trivial⟩
  rw [stringLiteral, String.toList_ofList, Watch.read_delimited (by decide)]
  simp only [Bool.false_eq_true]

theorem quiet_charLiteral (c : Char) : IsQuiet (charLiteral c) := by
  rw [IsQuiet, charLiteral, String.toList_ofList, Watch.read_delimited (by decide)]
  rfl

/-- The characters of numbers start no literal. -/
theorem IsQuiet.of_isNumeric {text : String} (h : ∀ c ∈ text.toList, isNumeric c = true) :
    IsQuiet text := by
  have others : isNumeric '\x22' = false ∧ isNumeric '\x27' = false := by decide
  refine Watch.read_code fun c member => ?_
  have numeric := h c member
  constructor <;> rintro rfl
  · simp [others] at numeric
  · simp [others] at numeric

/-- Only a string literal ends in one. -/
theorem Literal.text_shows (value : Literal) :
    Gives (Shows · False (∃ s, value = .string s)) value.text := by
  cases value with
  | null => exact .ok (.of_quiet (by decide))
  | bool value => cases value <;> exact .ok (.of_quiet (by decide))
  | int value =>
    have digits : IsQuiet (toString value.toInt) := .of_isNumeric fun _ => isNumeric_of_mem_toString
    refine .ok (.of_quiet ?_)
    split
    · exact digits
    · exact digits.append (by decide)
  | double value =>
    rw [Literal.text]
    split
    · exact .ok (.of_quiet (.of_isNumeric fun _ => isNumeric_of_mem_double))
    · exact .unsupported _
  | string s => exact .ok ((shows_stringLiteral s).mono fun _ => ⟨s, rfl⟩)

/-! ### Types and symbols -/

variable {scope : Scope}

theorem IntKind.quiet_spelling (k : IntKind) : IsQuiet k.spelling := by
  cases k <;> decide

theorem Scope.Named.className_isTaken (named : scope.Named) (id : ClassId) :
    Gives IsTaken (scope.className id) := fun _ found => (named.className found).isTaken

theorem Scope.Named.enumName_isTaken (named : scope.Named) (id : EnumId) :
    Gives IsTaken (scope.enumName id) := fun _ found => (named.enumName found).isTaken

/-- There are no literals in a type. -/
theorem Ty.spelling_quiet (named : scope.Named) (promote : Bool) (ty : Ty) :
    Gives IsQuiet (ty.spelling scope promote) := by
  induction ty generalizing promote with
  | void | bool | float | double | floatInt => exact .ok (by decide)
  | integer int => exact .after fun k => .ok (k.promotedIf promote).quiet_spelling
  | string kind => cases kind <;> exact .ok (by decide)
  | arrayPtr ownership element ih =>
    refine (ih false).bind fun text h => .ok ?_
    cases ownership with
    | readOnly | writable => exact h.append (by decide)
    | shared => exact (IsQuiet.append (by decide) h).append (by decide)
  | arrayStorage element length ih =>
    refine (ih false).bind fun text h => .ok ?_
    have front : IsQuiet ("std::array<" ++ text ++ ", ") :=
      (IsQuiet.append (by decide) h).append (by decide)
    exact (front.append (.of_inWord (isWord_repr length).inside)).append (by decide)
  | classPtr ownership pointee =>
    refine (named.className_isTaken pointee).bind fun name h => .ok ?_
    cases ownership with
    | readOnly | shared => exact (IsQuiet.append (by decide) h.quiet).append (by decide)
    | writable => exact h.quiet.append (by decide)
  | classValue stored => exact (named.className_isTaken stored).mono fun _ h => h.quiet
  | enum enumeration => exact (named.enumName_isTaken enumeration).mono fun _ h => h.quiet
  | null => exact .unsupported _

theorem Symbol.text_quiet (scopeNamed : scope.Named) {target : Symbol} (named : target.Named) :
    Gives IsQuiet (target.text scope) := by
  cases target with
  | this => exact .ok (by decide)
  | localName name => exact .ok (IsIdentifier.isTaken named).quiet
  | field owner name =>
    exact .ok (IsQuiet.append (by decide) named.identifier.isTaken.quiet)
  | constant owner name => exact .ok named.identifier.isTaken.quiet
  | enumValue owner name =>
    exact (scopeNamed.enumName_isTaken owner).bind fun _ h =>
      .ok ((h.quiet.append (by decide)).append named.identifier.isTaken.quiet)
  | classRef target => exact (scopeNamed.className_isTaken target).mono fun _ h => h.quiet
  | enumRef target => exact (scopeNamed.enumName_isTaken target).mono fun _ h => h.quiet
  | math | utf8 | stringLength => exact .unsupported _

theorem Symbol.memberName_isTaken {target : Symbol} (named : target.Named) :
    Gives IsTaken target.memberName := by
  cases target with
  | field owner name | constant owner name | enumValue owner name =>
    exact .ok named.identifier.isTaken
  | _ => exact .unsupported _

theorem quiet_resourceReference (name : String) : IsQuiet (resourceReference name) := by
  have inside : ∀ c ∈ (sanitizeIdentifier name).toList, inWord c = true := fun c =>
    inWord_of_mem_sanitizeIdentifier
  exact IsQuiet.append (by decide) (.of_inWord inside)

end CppPrinter
