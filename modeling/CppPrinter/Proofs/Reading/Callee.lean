import CppPrinter.Proofs.Expr.Tree
import CppPrinter.Proofs.Reading.Form

/-!
# Members and calls over operands that are read

A member and a call start with the text of their object, unless the call is put into a cast or
compared with the end of the string. A dot behind the object has to find something other than a
number there.
-/

namespace CppPrinter

/-- Arguments in a row are the items of a list. -/
theorem argumentTexts_isPhraseAt {params : List Ty} {args : List TreeOperand}
    (h : ∀ x ∈ args, x.IsRead) {texts : List String}
    (printed : argumentTexts params args = .ok texts) :
    ∃ tss items, List.Forall₂ Phrase texts tss ∧
      List.Forall₂ (Derives (.level .argument)) tss items := by
  have each : List.Forall₂ (fun text _ => IsPhraseAt .argument text) texts args :=
    argumentTexts_forall₂ params (fun x member _ => (h x member).phrase)
      (fun x member _ _ => (h x member).coerced) texts printed
  clear printed
  induction each with
  | nil => exact ⟨[], [], .nil, .nil⟩
  | cons first _ ih =>
    obtain ⟨-, others⟩ := List.forall_mem_cons.1 h
    obtain ⟨ts, t, phrase, derives⟩ := first
    obtain ⟨tss, items, phrases, derivations⟩ := ih others
    exact ⟨ts :: tss, t :: items, .cons phrase phrases, .cons derives derivations⟩

theorem argumentsText_isRead {params : List Ty} {args : List TreeOperand}
    (h : ∀ x ∈ args, x.IsRead) {text : String} (printed : argumentsText params args = .ok text) :
    ∃ ts t, Spells text ts ∧ Derives .items ts t := by
  obtain ⟨texts, printedTexts, rfl⟩ : ∃ texts, argumentTexts params args = .ok texts ∧
      ", ".intercalate texts = text := by simpa [argumentsText] using printed
  obtain ⟨tss, items, phrases, derivations⟩ := argumentTexts_isPhraseAt h printedTexts
  exact ⟨listed tss, itemsTree items, .intercalate phrases, .listed derivations⟩

/-- The member of an object behind an operator, or of a class behind its name. -/
theorem Trail.reach {op name : String} (isReach : op = "::" ∨ op ∈ memberOps)
    (h : IsMemberName name) : ∃ us form, Trail (op = ".") (op ++ name) us form := by
  rcases isReach with rfl | isMember
  · exact ⟨_, _, .weaken (.qualify h)⟩
  · exact ⟨_, _, .member isMember h.identifier⟩

theorem Operand.reach?_eq_ok {x : TreeOperand} {byName : Bool} {op : String}
    (found : x.reach? byName = .ok op) : op = "::" ∨ op ∈ memberOps := by
  unfold Operand.reach? at found
  split at found
  · cases found
    exact Or.inl rfl
  · obtain ⟨ty, -, rfl⟩ := map_eq_ok_iff.1 found
    unfold memberOperator
    split
    · exact Or.inr (by decide)
    · exact Or.inr (by decide)

theorem Symbol.Named.memberName {target : Symbol} (named : target.Named) {name : String}
    (printed : target.memberName = .ok name) : IsMemberName name := by
  cases target with
  | field owner name | constant owner name | enumValue owner name =>
    cases printed
    exact named
  | _ => simp [Symbol.memberName] at printed

section Rules

variable {scope : Scope} {x : TreeOperand} {args : List TreeOperand} {p : Precedence} {text : String}

theorem memberText_isOperand {target : Symbol} (named : target.Named) (h : x.IsRead)
    (apart : (x.expr ()).endsNumber = false) (printed : memberText x target = .ok text) :
    IsOperand (x.expr ()).leads false text := by
  by_cases isLength : target = .stringLength
  · subst isLength
    obtain ⟨receiver, printedReceiver, rfl⟩ : ∃ receiver, x.plain .primary = .ok receiver ∧
        receiver ++ ".length()" = text := by simpa [memberText] using printed
    have isMember : "." ∈ memberOps := by decide
    have length : IsIdentifier "length" := by decide
    have empty : Spells "" [] := by decide
    exact (h.primary printedReceiver).behind
      ((Trail.member isMember length).append (.call empty .noItem)) fun _ => apart
  · rw [memberText_eq isLength] at printed
    obtain ⟨name, printedName, receiver, printedReceiver, op, found, rfl⟩ : ∃ name,
        target.memberName = .ok name ∧ ∃ receiver, x.plain .primary = .ok receiver ∧ ∃ op,
          x.reach? target.isScoped = .ok op ∧ receiver ++ op ++ name = text := by
      simpa using printed
    have member := Symbol.Named.memberName named printedName
    obtain ⟨us, form, trail⟩ := Trail.reach (Operand.reach?_eq_ok found) member
    rw [String.append_assoc]
    exact (h.primary printedReceiver).behind trail fun _ => apart

/-- A call of a member of an operand. -/
theorem IsOperand.call {leads : Bool} {receiver op name arguments : String} {as : List Token}
    {a : Tree} (h : IsOperand leads false receiver) (isReach : op = "::" ∨ op ∈ memberOps)
    (named : IsMemberName name) (spells : Spells arguments as) (derives : Derives .items as a) :
    IsOperand leads false (receiver ++ op ++ name ++ "(" ++ arguments ++ ")") := by
  obtain ⟨us, form, trail⟩ := Trail.reach isReach named
  have whole := h.behind (trail.append (.call spells derives)) fun _ => rfl
  simpa [String.append_assoc] using whole

theorem methodCallText_isOperand {method : Signature} (named : IsMemberName (camelCase method.name))
    (h : x.IsRead) (apart : (x.expr ()).endsNumber = false) (h' : ∀ x ∈ args, x.IsRead)
    (printed : methodCallText method x args = .ok text) :
    IsOperand (x.expr ()).leads false text := by
  rw [methodCallText_eq] at printed
  obtain ⟨op, found, receiver, printedReceiver, arguments, printedArguments, rfl⟩ : ∃ op,
      x.reach? (method.dispatch = .static) = .ok op ∧ ∃ receiver,
        x.plain .primary = .ok receiver ∧ ∃ arguments,
          argumentsText (method.params.map Param.ty) args = .ok arguments ∧
            receiver ++ op ++ camelCase method.name ++ "(" ++ arguments ++ ")" = text := by
    simpa using printed
  obtain ⟨as, a, spells, derives⟩ := argumentsText_isRead h' printedArguments
  have receiver := h.primary printedReceiver
  rw [apart] at receiver
  exact receiver.call (Operand.reach?_eq_ok found) named spells derives

/-- A string literal becomes a view; any other receiver stays as it is. -/
theorem receiver_isOperand (h : x.IsRead) {literal? : Option Literal}
    (looked : x.literal? = .ok literal?) (printed : x.plain .primary = .ok text) :
    IsOperand (x.expr ()).leads (x.expr ()).endsNumber (text ++ viewSuffix literal?) := by
  have bare : IsOperand (x.expr ()).leads (x.expr ()).endsNumber (text ++ "") := by
    rw [String.append_empty]
    exact h.primary printed
  cases literal? with
  | none => exact bare
  | some value =>
    obtain ⟨same, leads, ends⟩ := h.literal (p := .primary) looked
    cases value with
    | string value =>
      rw [leads, ends]
      rw [same] at printed
      have isSuffix : "sv" ∈ Literal.suffixes := by decide
      exact Literal.isOperand_suffix printed isSuffix
    | _ => exact bare

theorem stringCallText_isOperand {name : String} {params : List Ty} (named : IsMemberName name)
    (h : x.IsRead) (apart : (x.expr ()).endsNumber = false) (h' : ∀ x ∈ args, x.IsRead)
    (printed : stringCallText name params x args = .ok text) :
    IsOperand (x.expr ()).leads false text := by
  obtain ⟨literal?, looked, receiver, printedReceiver, arguments, printedArguments, rfl⟩ :
      ∃ literal?, x.literal? = .ok literal? ∧ ∃ receiver, x.plain .primary = .ok receiver ∧
        ∃ arguments, argumentsText params args = .ok arguments ∧
          receiver ++ viewSuffix literal? ++ "." ++ name ++ "(" ++ arguments ++ ")" = text := by
    simpa [stringCallText] using printed
  obtain ⟨as, a, spells, derives⟩ := argumentsText_isRead h' printedArguments
  have receiver := receiver_isOperand h looked printedReceiver
  rw [apart] at receiver
  exact receiver.call (Or.inr (by decide)) named spells derives

/-- Something between a fixed opening and a closing parenthesis. -/
theorem IsOperandAs.enclosed {front inner : String} {us is : List Token} {t : Tree}
    (opened : Spells front us) (free : (tailOf front).isFree = true) (opens : Opens front)
    (spells : Spells inner is) (derives : Derives .tight (us ++ is ++ [Token.mark ")"]) t) :
    IsOperandAs false false (front ++ inner ++ ")") (us ++ is ++ [Token.mark ")"]) t := by
  have closed : Spells ")" [.mark ")"] := by decide
  refine .ofTight (.enclosed opened free opens spells closed (by decide) (by decide)) derives ?_
  rintro ⟨digits, last⟩
  simp at last

/-- A call of a function of the standard library. -/
theorem IsOperandAs.standardCall {name arguments : String} {as : List Token} {a : Tree}
    (named : IsMemberName name) (spells : Spells arguments as) (derives : Derives .items as a) :
    ∃ ts, IsOperandAs false false ("std::" ++ name ++ "(" ++ arguments ++ ")") ts
      (.call (.name ["std", name]) a) := by
  have library : Phrase "std" [.word "std"] := ⟨by decide, by decide, by decide⟩
  have isName : Derives .tight [.word "std"] (.name ["std"]) := .name (by decide)
  have noNumber : ¬ EndsNumber [.word "std"] := by
    rintro ⟨digits, last⟩
    cases last
  have trail := (Trail.qualify named).append (.call spells derives)
  have phrase := trail.phrase library fun _ => noNumber
  have path : "std::" = "std" ++ "::" := by decide
  rw [path]
  refine ⟨_, .ofTight ?_ (trail.takes isName) ?_⟩
  · simpa only [String.append_assoc] using phrase
  · rw [endsNumber_append trail.some]
    exact trail.noNumber

theorem isOperand_standardCall {name arguments : String} {as : List Token} {a : Tree}
    (named : IsMemberName name) (spells : Spells arguments as) (derives : Derives .items as a) :
    IsOperand false false ("std::" ++ name ++ "(" ++ arguments ++ ")") := by
  obtain ⟨ts, whole⟩ := IsOperandAs.standardCall named spells derives
  exact ⟨ts, _, whole⟩

theorem mathCallText_isOperand {name : String} (named : IsMemberName (mathFunction name))
    (h : ∀ x ∈ args, x.IsRead) (printed : mathCallText name args = .ok text) :
    IsOperand false false text := by
  obtain ⟨arguments, printedArguments, rfl⟩ : ∃ arguments,
      argumentsText (args.map fun _ => .double) args = .ok arguments ∧
        "std::" ++ mathFunction name ++ "(" ++ arguments ++ ")" = text := by
    simpa [mathCallText] using printed
  obtain ⟨as, a, spells, derives⟩ := argumentsText_isRead h printedArguments
  exact isOperand_standardCall named spells derives

/-- The words of the numeric types that casts are written to. -/
def castTargets : List String :=
  ["float", "int8_t", "uint8_t", "int16_t", "uint16_t", "int32_t", "int64_t"]

theorem spelling_mem_castTargets {target : Ty}
    (isNumber : target = .float ∨ ∃ int, target = .integer int) {ty : String}
    (spelled : target.spelling scope false = .ok ty) : ty ∈ castTargets := by
  rcases isNumber with rfl | ⟨int, rfl⟩
  · cases spelled
    decide
  · obtain ⟨kind, -, rfl⟩ : ∃ kind, IntKind.of int = .ok kind ∧
        (kind.promotedIf false).spelling = ty := by simpa [Ty.spelling] using spelled
    cases kind <;> decide

/-- A cast to a numeric type. -/
theorem isOperand_cast {ty inner : String} (isTarget : ty ∈ castTargets)
    (h : IsPhraseAt .statement inner) :
    IsOperand false false ("static_cast<" ++ ty ++ ">(" ++ inner ++ ")") := by
  have facts : ∀ ty ∈ castTargets,
      Spells ("static_cast<" ++ ty ++ ">(")
        [.word "static_cast", .mark "<", .word ty, .mark ">", .mark "("] ∧
      (tailOf ("static_cast<" ++ ty ++ ">(")).isFree = true ∧
      Opens ("static_cast<" ++ ty ++ ">(") := by decide +kernel
  obtain ⟨opened, free, opens⟩ := facts ty isTarget
  obtain ⟨is, i, phrase, derives⟩ := h
  have isCast : "static_cast" ∈ castWords := by decide
  have isType : closesType 0 [.word ty] = true := rfl
  exact ⟨_, _, .enclosed opened free opens phrase.spells (.cast isCast isType derives)⟩

theorem positionCallText_isOperand {name : String} (named : IsMemberName name) (h : x.IsRead)
    (apart : (x.expr ()).endsNumber = false) (h' : ∀ x ∈ args, x.IsRead)
    (printed : positionCallText name x args = .ok text) : IsOperand false false text := by
  obtain ⟨call, printedCall, rfl⟩ : ∃ call, stringCallText name [.string .view] x args = .ok call ∧
      "static_cast<int32_t>(" ++ call ++ ")" = text := by
    simpa [positionCallText] using printed
  have inner := stringCallText_isOperand named h apart h' printedCall
  have isTarget : "int32_t" ∈ castTargets := by decide
  have whole := isOperand_cast isTarget (inner.isPhraseAt .statement)
  have front : "static_cast<" ++ "int32_t" ++ ">(" = "static_cast<int32_t>(" := by decide
  rwa [front] at whole

/-- The tree is that of a pointer, or of the pointer past some elements. -/
inductive Tree.IsPast (pointer : Tree) : Tree → Prop where
  | start : IsPast pointer pointer
  | sum (offset : Tree) : IsPast pointer (.binary "+" pointer offset)

/-- The tree is what an array is read to as a raw pointer. -/
def Operand.IsPointer (x : TreeOperand) (t : Tree) : Prop :=
  ∃ p text, x.text .arrayPointer p = .ok text ∧ ReadsAt p text t

/-- The tree is that of a pointer into an array: of the array as a raw pointer, or past some elements. -/
def Operand.IsPointerInto (x : TreeOperand) (t : Tree) : Prop := ∃ base, x.IsPointer base ∧ base.IsPast t

theorem offsetPointerText_reads {y : TreeOperand} (h : x.IsRead) (h' : y.IsRead)
    (printed : offsetPointerText x y = .ok text) :
    ∃ ts t, Phrase text ts ∧ Derives (.level .argument) ts t ∧ x.IsPointerInto t := by
  have positioned : Form.arrayPointer.IsPositioned := trivial
  rw [offsetPointerText, bind_eq_ok_iff] at printed
  obtain ⟨literal?, -, printed⟩ := printed
  split at printed
  · obtain ⟨ts, t, phrase, derives⟩ := h.form positioned printed
    exact ⟨ts, t, phrase, derives, t, ⟨.argument, text, printed, ts, phrase.spells, derives⟩, .start⟩
  · obtain ⟨pointer, printedPointer, offset, printedOffset, rfl⟩ : ∃ pointer,
        x.text .arrayPointer .add = .ok pointer ∧ ∃ offset, y.coerced .i32 .mul = .ok offset ∧
          pointer ++ " + " ++ offset = text := by simpa using printed
    obtain ⟨bs, base, phrase, derives⟩ := h.form positioned printedPointer
    obtain ⟨os, o, phrase', derives'⟩ := h'.coerced printedOffset
    have atLevel : ("+", .add) ∈ infixOps := by decide
    have spaced : Spells (" " ++ "+") [.mark "+"] := by decide
    have shape : between pointer "+" offset = pointer ++ " + " ++ offset := by
      have spaces : " + " = " " ++ ("+" ++ " ") := by decide
      rw [spaces]
      simp only [between, String.append_assoc]
    have sum := phrase.between spaced phrase'
    rw [shape] at sum
    exact ⟨_, .binary "+" base o, sum, .loosen (by decide) (.binary atLevel derives derives'), base,
      ⟨.add, pointer, printedPointer, bs, phrase.spells, derives⟩, .sum o⟩

/-- A copy is read as a call with a pointer into the source, the count and a pointer into the target. -/
theorem copyCallText_reads {sourceOffset target targetOffset count : TreeOperand} (h : x.IsRead)
    (h' : ∀ y ∈ [sourceOffset, target, targetOffset, count], y.IsRead)
    (printed : copyCallText x [sourceOffset, target, targetOffset, count] = .ok text) :
    ∃ ts f n r, IsOperandAs false false text ts (.call (.name ["std", "copy_n"]) (itemsTree [f, n, r])) ∧
      x.IsPointerInto f ∧ target.IsPointerInto r := by
  obtain ⟨first, printedFirst, number, printedNumber, result, printedResult, rfl⟩ : ∃ first,
      offsetPointerText x sourceOffset = .ok first ∧ ∃ number,
        count.coerced .i32 .argument = .ok number ∧ ∃ result,
          offsetPointerText target targetOffset = .ok result ∧
            "std::copy_n(" ++ first ++ ", " ++ number ++ ", " ++ result ++ ")" = text := by
    simpa [copyCallText] using printed
  have readSourceOffset := h' sourceOffset (by simp)
  have readTarget := h' target (by simp)
  have readTargetOffset := h' targetOffset (by simp)
  have readCount := h' count (by simp)
  obtain ⟨fs, f, phraseFirst, derivesFirst, into⟩ :=
    offsetPointerText_reads h readSourceOffset printedFirst
  obtain ⟨ns, n, phraseNumber, derivesNumber⟩ := readCount.coerced printedNumber
  obtain ⟨rs, r, phraseResult, derivesResult, into'⟩ :=
    offsetPointerText_reads readTarget readTargetOffset printedResult
  have named : IsMemberName "copy_n" := by decide
  obtain ⟨ts, whole⟩ := IsOperandAs.standardCall named
    (.intercalate (.cons phraseFirst (.cons phraseNumber (.cons phraseResult .nil))))
    (.listed (.cons derivesFirst (.cons derivesNumber (.cons derivesResult .nil))))
  have front : "std::copy_n(" = "std::" ++ ("copy_n" ++ "(") := by decide
  refine ⟨ts, f, n, r, ?_, into, into'⟩
  rw [front]
  simpa only [String.intercalate_cons_cons, String.intercalate_singleton, String.append_assoc]
    using whole

theorem copyCallText_isOperand (h : x.IsRead) (h' : ∀ x ∈ args, x.IsRead)
    (printed : copyCallText x args = .ok text) : IsOperand false false text := by
  have printed' := printed
  unfold copyCallText at printed'
  split at printed'
  · obtain ⟨ts, f, n, r, whole, -, -⟩ := copyCallText_reads h h' printed
    exact ⟨ts, _, whole⟩
  · simp at printed'

/-- The tokens of the type that decoded bytes are cast to. -/
def charsTokens : List Token := [.word "const", .word "char", .mark "*"]

/-- A view over bytes is read as a call with a pointer into the bytes, cast, and the length. -/
theorem decodeCallText_reads {bytes offset length : TreeOperand} (h : ∀ x ∈ [bytes, offset, length], x.IsRead)
    (printed : decodeCallText [bytes, offset, length] = .ok text) :
    ∃ ts f n, IsOperandAs false false text ts (.call (.name ["std", "string_view"])
        (itemsTree [.cast "reinterpret_cast" charsTokens f, n])) ∧ bytes.IsPointerInto f := by
  obtain ⟨first, printedFirst, number, printedNumber, rfl⟩ : ∃ first,
      offsetPointerText bytes offset = .ok first ∧ ∃ number,
        length.coerced .i32 .argument = .ok number ∧
          "std::string_view(reinterpret_cast<const char *>(" ++ first ++ "), " ++ number ++ ")" =
            text := by simpa [decodeCallText] using printed
  have readBytes := h bytes (by simp)
  have readOffset := h offset (by simp)
  have readLength := h length (by simp)
  obtain ⟨fs, f, phraseFirst, derivesFirst, into⟩ :=
    offsetPointerText_reads readBytes readOffset printedFirst
  have opened : Spells "reinterpret_cast<const char *>("
      (.word "reinterpret_cast" :: .mark "<" :: (charsTokens ++ [Token.mark ">", .mark "("])) := by
    decide +kernel
  have isCast : "reinterpret_cast" ∈ castWords := by decide
  have isType : closesType 0 charsTokens = true := rfl
  have cast := IsOperandAs.enclosed opened (by decide) (by decide) phraseFirst.spells
    (.cast isCast isType (.loosen (by decide) derivesFirst))
  obtain ⟨ns, n, phraseNumber, derivesNumber⟩ := readLength.coerced printedNumber
  have named : IsMemberName "string_view" := by decide
  obtain ⟨ts, whole⟩ := IsOperandAs.standardCall named
    (.intercalate (.cons cast.phrase (.cons phraseNumber .nil)))
    (.listed (.cons (cast.derives.ofPrimary .argument) (.cons derivesNumber .nil)))
  have front : "std::string_view(reinterpret_cast<const char *>(" =
      "std::" ++ ("string_view" ++ ("(" ++ "reinterpret_cast<const char *>(")) := by decide +kernel
  have separator : "), " = ")" ++ ", " := by decide
  refine ⟨ts, f, n, ?_, into⟩
  rw [front, separator]
  simpa only [String.intercalate_cons_cons, String.intercalate_singleton, String.append_assoc]
    using whole

theorem decodeCallText_isOperand (h : ∀ x ∈ args, x.IsRead)
    (printed : decodeCallText args = .ok text) : IsOperand false false text := by
  have printed' := printed
  unfold decodeCallText at printed'
  split at printed'
  · obtain ⟨ts, f, n, whole, -⟩ := decodeCallText_reads h printed
    exact ⟨ts, _, whole⟩
  · simp at printed'

/-- A search compared with the end of the string. -/
theorem isPrinted_search {leads : Bool} {call : String} (h : IsOperand leads false call)
    (p : Precedence) :
    IsPrinted false false false p
      (Precedence.equality.parenthesize p (call ++ " != std::string::npos")) := by
  have atLevel : ("!=", .equality) ∈ infixOps := by decide
  have spaced : Spells (" " ++ "!=") [.mark "!="] := by decide
  have shape : between call "!=" "std::string::npos" = call ++ " != std::string::npos" := by
    have spaces : " != std::string::npos" = " " ++ ("!=" ++ (" " ++ "std::string::npos")) := by
      decide
    rw [spaces]
    simp only [between, String.append_assoc]
  have whole := (h.isPhraseAt .equality).leveled atLevel spaced (by decide) (by decide)
    ⟨_, _, .npos, derives_npos.ofTightAt .rel⟩ p
  rwa [shape] at whole

/-- The method asks something of a string. -/
def LibraryMethod.asksString : LibraryMethod → Bool
  | stringContains | stringIndexOf | stringLastIndexOf | stringStartsWith | stringEndsWith
  | stringSubstring => true
  | _ => false

/-- The call takes the method out of its object. -/
def MethodRef.asksObject : MethodRef → Bool
  | user .. => true
  | library method => method.asksString

/-- The methods of a call that are declared, and the functions that it calls by their names. -/
def MethodRef.Named : MethodRef → Prop
  | library (.math name) => IsMemberName (mathFunction name)
  | _ => True

theorem Scope.Named.method (named : scope.Named) {owner : ClassId} {index : Nat}
    {method : Signature} (found : scope.method owner index = .ok method) :
    IsMemberName (camelCase method.name) := by
  rw [Scope.method, bind_eq_ok_iff] at found
  obtain ⟨head, foundHead, found⟩ := found
  rw [Scope.class?, lookUp_eq_ok_iff] at foundHead
  split at found
  · rename_i method' listed
    cases found
    exact named.methods head (Array.mem_of_getElem? foundHead) method (List.mem_of_getElem? listed)
  · cases found

theorem callText_isPrinted {method : MethodRef} (scopeNamed : scope.Named) (named : method.Named)
    (h : x.IsRead) (apart : method.asksObject = true → (x.expr ()).endsNumber = false)
    (h' : ∀ x ∈ args, x.IsRead) (printed : callText scope method x args p = .ok text) :
    IsPrinted (method.keepsObject && (x.expr ()).leads) false false p text := by
  have startsWith : IsMemberName "starts_with" := by decide
  have endsWith : IsMemberName "ends_with" := by decide
  have substr : IsMemberName "substr" := by decide
  have find : IsMemberName "find" := by decide
  have rfind : IsMemberName "rfind" := by decide
  cases method with
  | user owner index =>
    rw [callText, bind_eq_ok_iff] at printed
    obtain ⟨method, found, printed⟩ := printed
    exact .operand (methodCallText_isOperand (scopeNamed.method found) h (apart rfl) h' printed)
  | library method =>
    cases method with
    | math name => exact .operand (mathCallText_isOperand named h' printed)
    | stringContains =>
      obtain ⟨call, printedCall, rfl⟩ : ∃ call,
          stringCallText "find" [.string .view] x args = .ok call ∧
            Precedence.equality.parenthesize p (call ++ " != std::string::npos") = text := by
        simpa [callText, libraryCallText] using printed
      exact isPrinted_search (stringCallText_isOperand find h (apart rfl) h' printedCall) p
    | stringIndexOf => exact .operand (positionCallText_isOperand find h (apart rfl) h' printed)
    | stringLastIndexOf => exact .operand (positionCallText_isOperand rfind h (apart rfl) h' printed)
    | stringStartsWith => exact .operand (stringCallText_isOperand startsWith h (apart rfl) h' printed)
    | stringEndsWith => exact .operand (stringCallText_isOperand endsWith h (apart rfl) h' printed)
    | stringSubstring => exact .operand (stringCallText_isOperand substr h (apart rfl) h' printed)
    | arrayCopyTo => exact .operand (copyCallText_isOperand h h' printed)
    | utf8GetString => exact .operand (decodeCallText_isOperand h' printed)
    | other name => simp [callText, libraryCallText] at printed

end Rules

end CppPrinter
