import CppPrinter.Proofs.Result
import CppPrinter.Proofs.Reading.Grammar
import CppPrinter.Proofs.Reading.TypeGrammar
import CppPrinter.Proofs.Reading.Atom
import CppPrinter.Text.Identifier
import CppPrinter.Ty.Spelling

/-!
# Texts of types

The text of a type starts with a word, and its tokens close every angle bracket that they open
(`IsTypeText`), so that it can stand between the brackets of a cast or of a template. The grammar
gives them the tree that the type stands for (`Ty.meaning`, `Ty.isTypeText_meaning`); what keeps
`const` where it belongs is that the text of an element ends in its star, if it is a pointer at all
(`TakesConst`). Classes and enumerations have to be named by identifiers (`Scope.NamesTypes`).
-/

namespace CppPrinter

/-- A name that can stand behind `::`. -/
structure IsMemberName (name : String) : Prop where
  identifier : IsIdentifier name
  noTemplate : name ≠ "make_shared"

instance (name : String) : Decidable (IsMemberName name) :=
  decidable_of_iff (IsIdentifier name ∧ name ≠ "make_shared")
    ⟨fun h => ⟨h.1, h.2⟩, fun h => ⟨h.1, h.2⟩⟩

/-- Whatever is declared has the name of something in the printed language. -/
structure Scope.Named (scope : Scope) : Prop where
  classes : ∀ c ∈ scope.classes, IsIdentifier c.name
  methods : ∀ c ∈ scope.classes, ∀ m ∈ c.methods, IsMemberName (camelCase m.name)
  enums : ∀ name ∈ scope.enums, IsIdentifier name

/-- Classes and enumerations have identifiers for names. -/
structure Scope.NamesTypes (scope : Scope) : Prop where
  classes : ∀ c ∈ scope.classes, IsIdentifier c.name
  enums : ∀ name ∈ scope.enums, IsIdentifier name

theorem Scope.Named.namesTypes {scope : Scope} (named : scope.Named) : scope.NamesTypes :=
  ⟨named.classes, named.enums⟩

/-! ### What types stand for -/

/-- The integer that arithmetic turns this one into. -/
def IntegerType.widened (int : IntegerType) : IntegerType :=
  if int.width.bits < 32 then ⟨.w32, true⟩ else int

/-- The name of an integer of fixed width. -/
def IntegerType.fixedName (int : IntegerType) : String :=
  (if int.signed then "int" else "uint") ++ toString int.width.bits ++ "_t"

/-- A pointer to the elements of an array. -/
def Ownership.arrayTree (element : TypeTree) : Ownership → TypeTree
  | readOnly => .pointer (.const element)
  | writable => .pointer element
  | shared => .sharedPtr (.unbounded element)

/-- A pointer to a class. -/
def Ownership.classTree (pointee : TypeTree) : Ownership → TypeTree
  | readOnly => .pointer (.const pointee)
  | writable => .pointer pointee
  | shared => .sharedPtr pointee

/-- What a type stands for; an integer at the top is promoted on demand. Null stands for none. -/
def Ty.meaning (scope : Scope) (promote : Bool) : Ty → Option TypeTree
  | void => some (.named ["void"])
  | bool => some (.named ["bool"])
  | integer int => some (.named [(if promote then int.widened else int).fixedName])
  | float => some (.named ["float"])
  | double | floatInt => some (.named ["double"])
  | string .view => some (.named ["std", "string_view"])
  | string .owned => some (.named ["std", "string"])
  | arrayPtr ownership element => do return ownership.arrayTree (← element.meaning scope false)
  | arrayStorage element length => do return .array (← element.meaning scope false) length
  | classPtr ownership pointee => do
    return ownership.classTree (.named [(← scope.classes[pointee.index]?).name])
  | classValue stored => do return .named [(← scope.classes[stored.index]?).name]
  | enum enumeration => do return .named [← scope.enums[enumeration.index]?]
  | null => none

/-- The text is a type by its looks, with its tokens. -/
structure IsTypeText (text : String) (ts : List Token) : Prop where
  spells : Spells text ts
  starts : ∃ c ∈ text.toList.head?, startsWord c = true
  closes : closesType 0 ts = true

namespace IsTypeText

variable {text front back : String} {ts us vs : List Token}

theorem name {name : String} (h : IsIdentifier name) : IsTypeText name [.word name] := by
  obtain ⟨first, rest, shape, starts, -⟩ := h.spelled
  refine ⟨(Phrase.name h).spells, ⟨first, ?_, starts⟩, rfl⟩
  rw [shape]
  rfl

theorem keyword {word : String} (h : word ∈ typeWords) : IsTypeText word [.word word] := by
  simp only [typeWords, List.mem_cons, List.not_mem_nil, or_false] at h
  rcases h with rfl | rfl | rfl | rfl <;> exact ⟨by decide, ⟨_, rfl, rfl⟩, rfl⟩

/-- A type with something behind it that closes its own brackets. -/
theorem append (h : IsTypeText text ts) (h' : Spells back us) (joins : Joins text back)
    (closes : closesType 0 us = true) : IsTypeText (text ++ back) (ts ++ us) where
  spells := h.spells.append h' joins
  starts := by
    obtain ⟨c, first, starts⟩ := h.starts
    refine ⟨c, ?_, starts⟩
    rw [String.toList_append, List.head?_append]
    simp [Option.mem_def.1 first]
  closes := by rw [← Nat.add_zero 0, closesType_append h.closes, closes]

/-- The first word of a type starts a new token behind a bracket. -/
theorem joins (h : IsTypeText text ts) {m : List Char} (tail : tailOf front = .mark m) :
    Joins front text := by
  obtain ⟨c, first, starts⟩ := h.starts
  intro d first'
  rw [Option.mem_unique first' first, tail]
  exact Pending.grow?_mark_word starts

theorem ne_empty (h : IsTypeText text ts) : text ≠ "" := by
  rintro rfl
  obtain ⟨c, first, -⟩ := h.starts
  cases first

/-- Something in front of a type, up to a bracket or a space. -/
theorem prepend (h : IsTypeText text ts) (opened : Spells front us) (joins : Joins front text)
    (starts : ∃ c ∈ front.toList.head?, startsWord c = true) (closes : closesType 0 us = true) :
    IsTypeText (front ++ text) (us ++ ts) where
  spells := opened.append h.spells joins
  starts := by
    obtain ⟨c, first, starts⟩ := starts
    refine ⟨c, ?_, starts⟩
    rw [String.toList_append, List.head?_append]
    simp [Option.mem_def.1 first]
  closes := by
    have behind := closesType_append closes 0 ts
    rw [Nat.add_zero] at behind
    rw [behind]
    exact h.closes

/-- A type between the brackets of a template. -/
theorem template (h : IsTypeText text ts) (opened : Spells front us) {m : List Char}
    (tail : tailOf front = .mark m) (starts : ∃ c ∈ front.toList.head?, startsWord c = true)
    (opens : ∀ xs, closesType 0 (us ++ xs) = closesType 1 xs) (closed : Spells back vs)
    (joins : Joins text back) (closes : closesType 1 vs = true) :
    IsTypeText (front ++ text ++ back) (us ++ ts ++ vs) where
  spells := by
    refine (opened.append h.spells (h.joins tail)).append closed ?_
    intro c first
    rw [(h.joins tail).tailOf_append h.ne_empty]
    exact joins c first
  starts := by
    obtain ⟨c, first, starts⟩ := starts
    refine ⟨c, ?_, starts⟩
    rw [String.append_assoc, String.toList_append, List.head?_append]
    simp [Option.mem_def.1 first]
  closes := by
    have inner := closesType_append h.closes 1 vs
    rw [Nat.zero_add] at inner
    rw [List.append_assoc, opens, inner]
    exact closes

end IsTypeText

section Spelling

variable {scope : Scope} {text : String}

theorem TakesConst.name {name : String} (h : IsIdentifier name) :
    TakesConst [.word name] (.named [name]) :=
  .simple (.named ⟨List.cons_ne_nil name [], .inl (by simpa using h.free)⟩)

theorem TakesConst.keyword {word : String} (h : word ∈ typeWords) :
    TakesConst [.word word] (.named [word]) :=
  .simple (.named ⟨List.cons_ne_nil word [], .inr ⟨word, h, rfl⟩⟩)

theorem Scope.NamesTypes.className (named : scope.NamesTypes) {id : ClassId}
    (printed : scope.className id = .ok text) :
    IsIdentifier text ∧ ∃ head, scope.classes[id.index]? = some head ∧ head.name = text := by
  obtain ⟨head, found, rfl⟩ : ∃ head, scope.class? id = .ok head ∧ head.name = text := by
    simpa [Scope.className] using printed
  rw [Scope.class?, lookUp_eq_ok_iff] at found
  exact ⟨named.classes head (Array.mem_of_getElem? found), head, found, rfl⟩

theorem Scope.NamesTypes.enumName (named : scope.NamesTypes) {id : EnumId}
    (printed : scope.enumName id = .ok text) :
    IsIdentifier text ∧ scope.enums[id.index]? = some text := by
  rw [Scope.enumName, lookUp_eq_ok_iff] at printed
  exact ⟨named.enums text (Array.mem_of_getElem? printed), printed⟩

theorem Scope.Named.className (named : scope.Named) {id : ClassId}
    (printed : scope.className id = .ok text) : IsIdentifier text :=
  (named.namesTypes.className printed).1

theorem Scope.Named.enumName (named : scope.Named) {id : EnumId}
    (printed : scope.enumName id = .ok text) : IsIdentifier text :=
  (named.namesTypes.enumName printed).1

theorem IntKind.isIdentifier (kind : IntKind) : IsIdentifier kind.spelling := by
  cases kind <;> decide

/-- The kind of an integer is spelled by its width and sign, widened where it is promoted. -/
theorem IntKind.spelling_eq {int : IntegerType} {kind : IntKind} (isKind : IntKind.of int = .ok kind)
    (promote : Bool) :
    (kind.promotedIf promote).spelling = (if promote then int.widened else int).fixedName := by
  obtain ⟨width, signed⟩ := int
  cases width <;> cases signed <;> cases isKind <;> cases promote <;> rfl

/-- A pointer to the elements of an array, around the text of an element. -/
theorem Ownership.isTypeText_array {ts : List Token} {t : TypeTree} (h : IsTypeText text ts)
    (reads : TakesConst ts t) (ownership : Ownership) :
    ∃ us, IsTypeText (ownership.arrayPtrText text) us ∧ TakesConst us (ownership.arrayTree t) := by
  cases ownership with
  | readOnly =>
    have spaced : Spells " const *" [.word "const", .mark "*"] := by decide
    refine ⟨_, h.append spaced (.of_splits h.spells (by decide)) rfl, ?_⟩
    simpa [arrayTree] using TakesConst.pointer reads.const
  | writable =>
    have spaced : Spells " *" [.mark "*"] := by decide
    exact ⟨_, h.append spaced (.of_splits h.spells (by decide)) rfl, .pointer reads.pointing⟩
  | shared =>
    have opened : Spells "std::shared_ptr<"
        [.word "std", .mark "::", .word "shared_ptr", .mark "<"] := by decide
    have closed : Spells "[]>" [.mark "[", .mark "]", .mark ">"] := by decide
    refine ⟨_, h.template opened rfl ⟨'s', rfl, rfl⟩ (fun _ => rfl) closed
      (.of_splits h.spells (by decide)) rfl, ?_⟩
    have elements := DerivesType.sharedPtr (.unbounded reads.pointing)
    exact .simple (by simpa [arrayTree] using elements)

/-- A pointer to a class. -/
theorem Ownership.isTypeText_class {name : String} (h : IsIdentifier name)
    (ownership : Ownership) :
    ∃ us, IsTypeText (ownership.classPtrText name) us ∧
      TakesConst us (ownership.classTree (.named [name])) := by
  have ty := IsTypeText.name h
  have reads := TakesConst.name h
  cases ownership with
  | readOnly =>
    have spaced : Spells " *" [.mark "*"] := by decide
    have constant : Spells "const " [.word "const"] := by decide
    have qualified := ty.prepend constant (.of_free (by decide)) ⟨'c', rfl, rfl⟩ rfl
    refine ⟨_, qualified.append spaced (.of_splits qualified.spells (by decide)) rfl, ?_⟩
    have path : IsTypePath [name] := ⟨List.cons_ne_nil name [], .inl (by simpa using h.free)⟩
    exact .pointer (.ofSpecified (.westConst (.named path)))
  | writable =>
    have spaced : Spells " *" [.mark "*"] := by decide
    exact ⟨_, ty.append spaced (.of_splits ty.spells (by decide)) rfl, .pointer reads.pointing⟩
  | shared =>
    have opened : Spells "std::shared_ptr<"
        [.word "std", .mark "::", .word "shared_ptr", .mark "<"] := by decide
    have closed : Spells ">" [.mark ">"] := by decide
    have joins : Joins name ">" := (Phrase.name h).joins_joint rfl (by decide)
    exact ⟨_, ty.template opened rfl ⟨'s', rfl, rfl⟩ (fun _ => rfl) closed joins rfl,
      .simple (.sharedPtr (.ofPointing reads.pointing))⟩

/-- An inline array, around the text of an element. -/
theorem IsTypeText.storage {ts : List Token} {t : TypeTree} (h : IsTypeText text ts)
    (reads : TakesConst ts t) (length : Nat) :
    ∃ us, IsTypeText ("std::array<" ++ text ++ ", " ++ toString length ++ ">") us ∧
      TakesConst us (.array t length) := by
  have opened : Spells "std::array<" [.word "std", .mark "::", .word "array", .mark "<"] := by
    decide
  have number := (IsNumeral.decimal length).phrase
  have separator : Spells ", " [.mark ","] := by decide
  have angle : Spells ">" [.mark ">"] := by decide
  have closed : Spells (", " ++ (toString length ++ ">"))
      ([Token.mark ","] ++ ([Token.number length.repr] ++ [Token.mark ">"])) :=
    separator.free_append (number.spells.append angle (number.joins_joint rfl (by decide)))
      (by decide)
  have splits : Splits (", " ++ (toString length ++ ">")) := by
    refine ⟨',', ?_, by decide⟩
    rw [String.toList_append]
    rfl
  have whole := h.template opened rfl ⟨'s', rfl, rfl⟩ (fun _ => rfl) closed
    (.of_splits h.spells splits) rfl
  have shape : "std::array<" ++ text ++ ", " ++ toString length ++ ">" =
      "std::array<" ++ text ++ (", " ++ (toString length ++ ">")) := by
    simp only [String.append_assoc]
  rw [shape]
  exact ⟨_, whole, .simple (.array length (.ofPointing reads.pointing))⟩

/-- The text of a type, wherever it is asked for, is read as what the type stands for. -/
theorem Ty.isTypeText_meaning (named : scope.NamesTypes) {ty : Ty} {promote : Bool}
    (printed : ty.spelling scope promote = .ok text) :
    ∃ ts t, IsTypeText text ts ∧ TakesConst ts t ∧ ty.meaning scope promote = some t := by
  induction ty generalizing text promote with
  | void | bool | float | double | floatInt =>
    cases printed
    exact ⟨_, _, .keyword (by decide), .keyword (by decide), rfl⟩
  | integer int =>
    obtain ⟨kind, isKind, rfl⟩ : ∃ kind, IntKind.of int = .ok kind ∧
        (kind.promotedIf promote).spelling = text := by simpa [Ty.spelling] using printed
    have name := (kind.promotedIf promote).isIdentifier
    refine ⟨_, _, .name name, .name name, ?_⟩
    rw [Ty.meaning, IntKind.spelling_eq isKind]
  | string kind =>
    have free : "std" ∉ keywords := by decide
    have path {word : String} (free' : word ∉ keywords) : IsTypePath ["std", word] :=
      ⟨List.cons_ne_nil _ _, .inl (by simp [free, free'])⟩
    cases kind with
    | view =>
      cases printed
      exact ⟨[.word "std", .mark "::", .word "string_view"], _, ⟨by decide, ⟨'s', rfl, rfl⟩, rfl⟩,
        .simple (.named (path (by decide))), rfl⟩
    | owned =>
      cases printed
      exact ⟨[.word "std", .mark "::", .word "string"], _, ⟨by decide, ⟨'s', rfl, rfl⟩, rfl⟩,
        .simple (.named (path (by decide))), rfl⟩
  | arrayPtr ownership element ih =>
    obtain ⟨inner, printedInner, rfl⟩ : ∃ inner, element.spelling scope false = .ok inner ∧
        ownership.arrayPtrText inner = text := by simpa [Ty.spelling] using printed
    obtain ⟨ts, t, isType, reads, means⟩ := ih printedInner
    obtain ⟨us, isType', reads'⟩ := ownership.isTypeText_array isType reads
    exact ⟨us, _, isType', reads', by simp [Ty.meaning, means]⟩
  | arrayStorage element length ih =>
    obtain ⟨inner, printedInner, rfl⟩ : ∃ inner, element.spelling scope false = .ok inner ∧
        "std::array<" ++ inner ++ ", " ++ toString length ++ ">" = text := by
      simpa [Ty.spelling] using printed
    obtain ⟨ts, t, isType, reads, means⟩ := ih printedInner
    obtain ⟨us, isType', reads'⟩ := isType.storage reads length
    exact ⟨us, _, isType', reads', by simp [Ty.meaning, means]⟩
  | classPtr ownership pointee =>
    obtain ⟨name, found, rfl⟩ : ∃ name, scope.className pointee = .ok name ∧
        ownership.classPtrText name = text := by simpa [Ty.spelling] using printed
    obtain ⟨identifier, head, atPointee, rfl⟩ := named.className found
    obtain ⟨us, isType, reads⟩ := ownership.isTypeText_class identifier
    exact ⟨us, _, isType, reads, by simp [Ty.meaning, atPointee]⟩
  | classValue stored =>
    obtain ⟨identifier, head, atStored, rfl⟩ := named.className printed
    exact ⟨_, _, .name identifier, .name identifier, by simp [Ty.meaning, atStored]⟩
  | enum enumeration =>
    obtain ⟨identifier, found⟩ := named.enumName printed
    exact ⟨_, _, .name identifier, .name identifier, by simp [Ty.meaning, found]⟩
  | null => simp [Ty.spelling] at printed

/-- The text of a type, wherever it is asked for. -/
theorem Ty.isTypeText (named : scope.Named) {ty : Ty} {promote : Bool}
    (printed : ty.spelling scope promote = .ok text) : ∃ ts, IsTypeText text ts := by
  obtain ⟨ts, -, isType, -⟩ := Ty.isTypeText_meaning named.namesTypes printed
  exact ⟨ts, isType⟩

end Spelling

end CppPrinter
